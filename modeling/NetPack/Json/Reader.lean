import NetPack.Json.Token

/-!
# Reading JSON

`Json.parse?` reads a document from its tokens, one at a time, with a stack of the arrays and
objects that are still open. Each token either completes a value, which goes into the innermost open
collection, or opens or closes a collection, or is the punctuation that is due there. Collections
may lie in one another to any depth, but nothing can be read from those that lie too deep.
-/

namespace NetPack

namespace Json

/-- A collection that is still open. -/
inductive Open where
  /-- An array and its elements so far, the last one first. -/
  | array (elements : List Json)
  /-- An object, its members so far, the last one first, and the name whose value comes next. A name
  that stands for no text is `none`. -/
  | object (members : List (Option String × Json)) (name : Option String)

/-- What may come next. -/
inductive Due where
  /-- A value. -/
  | value
  /-- A value, or the end of the array that was just opened. -/
  | valueOrClose
  /-- A name, or the end of the object that was just opened. -/
  | nameOrClose
  /-- A name. -/
  | name
  /-- The colon between the name just read and its value. -/
  | colon
  /-- A comma or the end of the innermost collection. -/
  | separator
  /-- Nothing: the document is complete. -/
  | nothing (document : Json)

/-- A reader in the middle of a document. -/
structure Reader where
  /-- The open collections, the innermost one first. -/
  stack : List Open
  /-- What may come next. -/
  due : Due

namespace Reader

/-- The reader before the first token. -/
def start : Reader := ⟨[], .value⟩

/-- Puts a complete value into the innermost open collection. -/
def complete (j : Json) : List Open → Reader
  | [] => ⟨[], .nothing j⟩
  | .array elements :: outer => ⟨.array (j :: elements) :: outer, .separator⟩
  | .object members name :: outer => ⟨.object ((name, j) :: members) name :: outer, .separator⟩

/-- How many collections may lie in one another. -/
def maxDepth : Nat := 127

/-- Closes a collection that lies in as many as `outer` holds. -/
def close (j : Json) (outer : List Open) : Reader :=
  complete (if outer.length < maxDepth then j else .unreadable) outer

/-- An object with the given members, the last one first. -/
def objectOf (members : List (Option String × Json)) : Json :=
  match members.reverse.mapM fun (name, j) => name.map (·, j) with
  | some members => .object members
  | none => .unreadable

/-- Reads a token that starts a value. -/
def value? (stack : List Open) : Token → Option Reader
  | .null => some (complete .null stack)
  | .bool b => some (complete (.bool b) stack)
  | .number literal => some (complete (.number literal) stack)
  | .string s => some (complete (.string s) stack)
  | .brokenString => some (complete .unreadable stack)
  | .openArray => some ⟨.array [] :: stack, .valueOrClose⟩
  | .openObject => some ⟨.object [] none :: stack, .nameOrClose⟩
  | _ => none

/-- Reads a token that is a name. -/
def name? (members : List (Option String × Json)) (outer : List Open) : Token → Option Reader
  | .string name => some ⟨.object members (some name) :: outer, .colon⟩
  | .brokenString => some ⟨.object members none :: outer, .colon⟩
  | _ => none

/-- Reads one token. -/
def step (r : Reader) (t : Token) : Option Reader :=
  match r.due, t, r.stack with
  | .value, t, stack => value? stack t
  | .valueOrClose, .closeArray, .array elements :: outer =>
    some (close (.array elements.reverse) outer)
  | .valueOrClose, t, stack => value? stack t
  | .nameOrClose, .closeObject, .object members _ :: outer => some (close (objectOf members) outer)
  | .nameOrClose, t, .object members _ :: outer => name? members outer t
  | .name, t, .object members _ :: outer => name? members outer t
  | .colon, .colon, stack => some ⟨stack, .value⟩
  | .separator, .comma, .array elements :: outer => some ⟨.array elements :: outer, .value⟩
  | .separator, .comma, .object members name :: outer =>
    some ⟨.object members name :: outer, .name⟩
  | .separator, .closeArray, .array elements :: outer =>
    some (close (.array elements.reverse) outer)
  | .separator, .closeObject, .object members _ :: outer => some (close (objectOf members) outer)
  | _, _, _ => none

end Reader

/-- Reads a document. -/
def parse? (s : String) : Option Json := do
  let r ← (← tokens? s).foldlM Reader.step Reader.start
  match r.due with
  | .nothing j => some j
  | _ => none

end Json

end NetPack
