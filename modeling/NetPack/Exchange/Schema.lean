import NetPack.Exchange.Wire

/-!
# The shape of exchange messages

An exchange file holds more than a conversion looks at. `Schema.accepts` checks a whole file against
the layout of every message that may occur in it: known fields have the right contents, texts are
texts, and inner messages are messages themselves, down to a limited depth.
-/

namespace NetPack

namespace Schema

/-- The messages of an exchange file. -/
inductive Kind where
  | model
  | graph
  | node
  | attr
  | tensor
  | part
  | sparseTensor
  | valueInfo
  | type
  | tensorType
  | shape
  | dimension
  | operatorSet
  | entry
  | annotation
  | training
  | function
deriving DecidableEq

/-- The contents of a field. -/
inductive Content where
  /-- One variable-length number. -/
  | number
  /-- Variable-length numbers, one by one or in one piece. -/
  | numbers
  /-- One single-precision number. -/
  | single
  /-- Single-precision numbers, one by one or in one piece. -/
  | singles
  /-- Double-precision numbers, one by one or in one piece. -/
  | doubles
  | text
  | bytes
  | message (kind : Kind)

open Kind Content in
/-- The known fields of a message. -/
def fieldsOf : Kind → List (Nat × Content)
  | model => [(1, number), (2, text), (3, text), (4, text), (5, number), (6, text),
      (7, message graph), (8, message operatorSet), (14, message entry), (20, message training),
      (25, message function)]
  | graph => [(1, message node), (2, text), (5, message tensor), (10, text),
      (11, message valueInfo), (12, message valueInfo), (13, message valueInfo),
      (14, message annotation), (15, message sparseTensor)]
  | node => [(1, text), (2, text), (3, text), (4, text), (5, message attr), (6, text),
      (7, text)]
  | attr => [(1, text), (2, single), (3, number), (4, Content.bytes), (5, message tensor),
      (6, message graph), (7, singles), (8, numbers), (9, Content.bytes), (10, message tensor),
      (11, message graph), (13, text), (15, message type), (20, number), (21, text),
      (22, message sparseTensor), (23, message sparseTensor)]
  | tensor => [(1, numbers), (2, number), (3, message part), (4, singles), (5, numbers),
      (6, Content.bytes), (7, numbers), (8, text), (9, Content.bytes), (10, doubles), (11, numbers),
      (12, text), (13, message entry), (14, number)]
  | part => [(1, number), (2, number)]
  | sparseTensor => [(1, message tensor), (2, message tensor), (3, numbers)]
  | valueInfo => [(1, text), (2, message type), (3, text)]
  | type => [(1, message tensorType), (6, text)]
  | tensorType => [(1, number), (2, message shape)]
  | shape => [(1, message dimension)]
  | dimension => [(1, number), (2, text), (3, text)]
  | operatorSet => [(1, text), (2, number)]
  | entry => [(1, text), (2, text)]
  | annotation => [(1, text), (2, message entry)]
  | training => [(1, message graph), (2, message graph), (3, message entry), (4, message entry)]
  | function => [(1, text), (4, text), (5, text), (6, text), (7, message node), (8, text),
      (9, message operatorSet), (10, text)]

/-- Do the contents of a field that is no message fit? -/
def fits : Content → Wire.Value → Bool
  | .number, .varint _ => true
  | .numbers, .varint _ => true
  | .numbers, .bytes b => (Wire.varints? b).isSome
  | .single, .fixed32 _ => true
  | .singles, .fixed32 _ => true
  | .singles, .bytes b => b.length % 4 == 0
  | .doubles, .fixed64 _ => true
  | .doubles, .bytes b => b.length % 8 == 0
  | .text, .bytes b => (Bytes.toString? b).isSome
  | .bytes, .bytes _ => true
  | _, _ => false

/-- Is this a field of a message of the given kind? `inner` checks the messages in it; there is none
where the depth is used up, and then every field has to be known. -/
def admits (inner : Option (Kind → Bytes → Bool)) (kind : Kind) (f : Wire.Field) : Bool :=
  match (fieldsOf kind).lookup f.1, f.2 with
  | some (.message k), .bytes b => inner.any fun accepts => accepts k b
  | some (.message _), _ => false
  | some content, v => fits content v
  | none, _ => inner.isSome

/-- Is this the layout of a message of the given kind? Messages and groups lie at most `depth`
levels below it. -/
def acceptsWithin : (depth : Nat) → Kind → Bytes → Bool
  | 0, kind, b => (Wire.fields? 0 b).any fun fields => fields.all (admits none kind)
  | depth + 1, kind, b =>
    (Wire.fields? (depth + 1) b).any fun fields =>
      fields.all (admits (some (acceptsWithin depth)) kind)

/-- The deepest nesting of messages that is read. -/
def maxDepth : Nat := 100

/-- Is this the layout of a whole exchange file? -/
def accepts (b : Bytes) : Bool := acceptsWithin maxDepth .model b

end Schema

end NetPack
