import NetPack.Bytes
import NetPack.Container.Error
import NetPack.Json.Decode
import NetPack.Json.Writer
import NetPack.Table
import NetPack.Tensor.Basic

/-!
# Tensor containers

A container is a file with named tensors and one text of a given kind. It starts with the length of
a header, eight bytes with the lowest first; then come the header, a JSON document padded with
blanks to a multiple of eight bytes, and the elements of the tensors without gaps. The header lists,
for every tensor, its element type, its shape and where its elements are.

`Container.index` reads and checks the header; it accepts every element type of the format.
`Container.decode` turns the entries into tensors.
-/

namespace NetPack

namespace Container

/-- The element types of the format and the bytes of one element. -/
def elementTypes : List (String × Nat) :=
  [("BOOL", 1), ("U8", 1), ("I8", 1), ("F8_E5M2", 1), ("F8_E4M3", 1), ("I16", 2), ("U16", 2),
   ("F16", 2), ("BF16", 2), ("I32", 4), ("U32", 4), ("F32", 4), ("F64", 8), ("I64", 8),
   ("U64", 8)]

/-- The element types that tensors can have. -/
def tensorTypes : List (String × DType) :=
  [("F32", .f32), ("F16", .f16), ("BF16", .bf16), ("I8", .i8), ("U8", .u8)]

/-- What the header says about a tensor. -/
structure Entry where
  /-- The element type. -/
  elementType : String
  /-- Bytes per element. -/
  width : Nat
  /-- The shape. -/
  shape : Shape
  /-- Where the elements start. -/
  first : Nat
  /-- Where the elements end. -/
  last : Nat
deriving DecidableEq

/-- A header that was read and checked. -/
structure Index where
  /-- The texts by kind. -/
  texts : List (String × String)
  /-- The entries in the order of their places. -/
  entries : List (String × Entry)
  /-- The elements of all tensors. -/
  elements : Bytes

/-- The longest header that is read. -/
def maxHeader : Nat := 100000000

/-! ### Writing -/

/-- The entries of the header, for tensors in the order of their names. -/
def entryMembers : (start : Nat) → List (String × Tensor Binary32) → List (String × Json)
  | _, [] => []
  | start, (name, t) :: rest =>
    let stop := start + t.numBytes
    (name, .object [("dtype", .string "F32"), ("shape", .nats t.shape.dims),
      ("data_offsets", .nats [start, stop])]) :: entryMembers stop rest

/-- The document in front of the tensors. -/
def header (kind text : String) (tensors : Table (Tensor Binary32)) : Json :=
  .object (("__metadata__", .object [(kind, .string text)]) :: entryMembers 0 tensors.entries)

/-- A container of tensors and a text of the given kind. -/
def encode (kind text : String) (tensors : Table (Tensor Binary32)) : Bytes :=
  let document := Bytes.ofString (header kind text tensors).render
  let padded := document ++ List.replicate ((8 - document.length % 8) % 8) 0x20
  Bytes.ofNat 8 padded.length ++ padded ++ tensors.entries.flatMap fun e => e.2.toBytes

/-! ### Reading -/

variable {δ : Type} [Document δ]

/-- Reads what the header says about a tensor. -/
def Entry.read : Decoder δ Entry := fun d => do
  let r ← Document.record ["dtype", "shape", "data_offsets"] d
  let find (name : String) := elementTypes.find? fun t => t.1 == name
  let (elementType, width) ← r.required "dtype" (Document.name find "an element type")
  let dims ← r.required "shape" (Document.list Document.nat)
  let (first, last) ← r.required "data_offsets" (Document.pair Document.nat)
  return ⟨elementType, width, ⟨dims⟩, first, last⟩

/-- Reads the texts by kind. -/
def readTexts : Decoder δ (List (String × String)) := fun d => do
  if Document.isNull d then return []
  let members ← Document.expect "an object of texts" (Document.members? d)
  members.mapM fun (kind, text) => return (kind, ← Document.string text)

/-- Does the first entry lie before the second one? -/
def Entry.before (a b : Entry) : Bool :=
  a.first < b.first || (a.first == b.first && a.last ≤ b.last)

/-- Reads the header: the texts and the entries in the order of their places. Of two entries of one
name the later one counts. -/
def readHeader : Decoder δ (List (String × String) × List (String × Entry)) := fun d => do
  let members ← Document.expect "an object" (Document.members? d)
  let (metadata, tensors) := members.partition fun m => m.1 == "__metadata__"
  let texts ←
    match metadata with
    | [] => pure []
    | [(_, texts)] => readTexts texts
    | _ => throw (.repeated "__metadata__")
  let entries ← tensors.mapM fun (name, entry) => do
    let _ ← Document.expect "an entry that can be kept" (Document.kept? entry)
    return (name, ← Entry.read entry)
  return (texts, (Table.ofList entries).entries.mergeSort fun a b => a.2.before b.2)

/-- Checks that the tensors lie one after the other from `start` on and have the size that their
shape asks for. Returns where the last one ends. -/
def checkEntries : (start : Nat) → List (String × Entry) → Except ContainerError Nat
  | start, [] => .ok start
  | start, (name, e) :: rest => do
    if e.first ≠ start || e.last < e.first then throw (.offset name)
    let some count := e.shape.numElements? | throw .sizeOverflow
    let some size := Word.mul? count e.width | throw .sizeOverflow
    if e.last - e.first ≠ size then throw .tensorSize
    checkEntries e.last rest

/-- Reads and checks the header of a container. -/
def index (bytes : Bytes) : Except ContainerError Index := do
  let size := bytes.length
  if size < 8 then throw .headerTooSmall
  let n := Bytes.toNat (bytes.take 8)
  if maxHeader < n then throw .headerTooLarge
  if size < n + 8 then throw .headerLength
  let rest := bytes.drop 8
  let some text := Bytes.toString? (rest.take n) | throw .headerText
  let .ok (texts, entries) := Json.decode readHeader text | throw .headerDocument
  let stop ← checkEntries 0 entries
  if stop + 8 + n ≠ size then throw .incomplete
  return ⟨texts, entries, rest.drop n⟩

/-- The bytes of an entry. -/
def Index.bytesOf (ix : Index) (e : Entry) : Bytes :=
  (ix.elements.drop e.first).take (e.last - e.first)

/-- The element type that an entry has as a tensor. -/
def Entry.dtype (e : Entry) : Except ContainerError DType :=
  match tensorTypes.lookup e.elementType with
  | some t => .ok t
  | none => .error (.elementType e.elementType)

/-- The text of a kind; of two texts of one kind the later one counts. -/
def Index.textOf? (ix : Index) (kind : String) : Option String := ix.texts.reverse.lookup kind

/-- The text of the given kind and the tensors of a container. -/
def decode (bytes : Bytes) (kind : String) :
    Except ContainerError (String × Table (Tensor Binary32)) := do
  let ix ← index bytes
  let some text := ix.textOf? kind | throw (.noHeader kind)
  let tensors ← ix.entries.mapM fun (name, e) => do
    match Tensor.ofBytes e.shape (← e.dtype) (ix.bytesOf e) with
    | .ok t => return (name, t)
    | .error cause => throw (.tensor name cause)
  return (text, Table.ofList tensors)

end Container

end NetPack
