import NetPack.Exchange.Model
import NetPack.Exchange.Schema

/-!
# Exchange models as bytes

Fields are written in the order of their numbers, and a field whose value is the default one is left
out. On reading a later value of a field replaces an earlier one, repeated values are collected, and
the parts of a message that is given in pieces are merged.
-/

namespace NetPack

namespace Exchange

open Wire

/-! ### Writing -/

/-- A text that is left out if it is empty. -/
def textField (number : Nat) (s : String) : Bytes :=
  omitIf s.isEmpty (bytesField number (Bytes.ofString s))

/-- An integer that is left out if it is zero. -/
def intField (number : Nat) (i : Int) : Bytes := omitIf (i == 0) (varintField number (unsigned i))

/-- Integers in one piece. -/
def intsField (number : Nat) (is : List Int) : Bytes :=
  omitIf is.isEmpty (bytesField number (is.flatMap fun i => encodeVarint (unsigned i)))

/-- Single-precision numbers in one piece. -/
def singlesField (number : Nat) (xs : List Binary32) : Bytes :=
  omitIf xs.isEmpty (bytesField number (Binary32.bytesOfList xs))

/-- A list of texts. -/
def textsField (number : Nat) (ss : List String) : Bytes :=
  ss.flatMap fun s => bytesField number (Bytes.ofString s)

def Attribute.encode (a : Attribute) : Bytes :=
  textField 1 a.name ++ omitIf a.single.isZero (singleField 2 a.single) ++ intField 3 a.int ++
    omitIf a.text.isEmpty (bytesField 4 a.text) ++ intsField 8 a.ints ++ intField 20 a.type

def Operator.encode (o : Operator) : Bytes :=
  textsField 1 o.inputs ++ textsField 2 o.outputs ++ textField 3 o.name ++ textField 4 o.type ++
    o.attributes.flatMap fun a => bytesField 5 a.encode

def Initializer.encode (t : Initializer) : Bytes :=
  intsField 1 t.dims ++ intField 2 t.dataType ++ singlesField 4 t.singles ++ textField 8 t.name ++
    omitIf t.raw.isEmpty (bytesField 9 t.raw)

def Dimension.encode : Dimension → Bytes
  | .unset => []
  | .value n => varintField 1 (unsigned n)
  | .param name => bytesField 2 (Bytes.ofString name)

def ValueType.encode : ValueType → Bytes
  | .tensor elementType shape =>
    bytesField 1 (intField 1 elementType ++
      match shape with
      | some dims => bytesField 2 (dims.flatMap fun d => bytesField 1 d.encode)
      | none => [])
  | .unset => []

def Value.encode (v : Value) : Bytes :=
  textField 1 v.name ++ omitIf (v.type == .unset) (bytesField 2 v.type.encode)

def OperatorSet.encode (s : OperatorSet) : Bytes := textField 1 s.domain ++ intField 2 s.version

def Graph.encode (g : Graph) : Bytes :=
  (g.operators.flatMap fun o => bytesField 1 o.encode) ++ textField 2 g.name ++
    (g.initializers.flatMap fun t => bytesField 5 t.encode) ++
    (g.inputs.flatMap fun v => bytesField 11 v.encode) ++
    g.outputs.flatMap fun v => bytesField 12 v.encode

/-- The bytes of an exchange file. -/
def Model.encode (m : Model) : Bytes :=
  intField 1 m.irVersion ++ textField 2 m.producerName ++ textField 3 m.producerVersion ++
    (match m.graph with
      | some g => bytesField 7 g.encode
      | none => []) ++
    m.operatorSets.flatMap fun s => bytesField 8 s.encode

/-! ### Reading -/

/-- The fields of a message that the schema accepts. -/
def fieldsIn (b : Bytes) : List Field := (fields? Schema.maxDepth b).getD []

/-- The text in a field. -/
def textOf (b : Bytes) : String := (Bytes.toString? b).getD ""

/-- The integer of 32 bits in a number. -/
def int32 (n : Nat) : Int := Int.bmod n 4294967296

/-- The integers of a field that may hold many. -/
def intsOf : Wire.Value → List Int
  | .varint n => [signed n]
  | .bytes b => ((varints? b).getD []).map signed
  | _ => []

/-- The single-precision number of four bytes. -/
def singleOf (n : Nat) : Binary32 := ⟨UInt32.ofNat n⟩

/-- The single-precision numbers of a field that may hold many. -/
def singlesOf : Wire.Value → List Binary32
  | .fixed32 n => [singleOf n]
  | .bytes b => Binary32.listOfBytes b
  | _ => []

def Attribute.step (a : Attribute) : Field → Attribute
  | (1, .bytes b) => { a with name := textOf b }
  | (2, .fixed32 n) => { a with single := singleOf n }
  | (3, .varint n) => { a with int := signed n }
  | (4, .bytes b) => { a with text := b }
  | (8, v) => { a with ints := a.ints ++ intsOf v }
  | (20, .varint n) => { a with type := int32 n }
  | _ => a

def Attribute.ofBytes (b : Bytes) : Attribute := (fieldsIn b).foldl step (.named "")

def Operator.step (o : Operator) : Field → Operator
  | (1, .bytes b) => { o with inputs := o.inputs ++ [textOf b] }
  | (2, .bytes b) => { o with outputs := o.outputs ++ [textOf b] }
  | (3, .bytes b) => { o with name := textOf b }
  | (4, .bytes b) => { o with type := textOf b }
  | (5, .bytes b) => { o with attributes := o.attributes ++ [.ofBytes b] }
  | _ => o

def Operator.ofBytes (b : Bytes) : Operator := (fieldsIn b).foldl step ⟨[], [], "", "", []⟩

def Initializer.step (t : Initializer) : Field → Initializer
  | (1, v) => { t with dims := t.dims ++ intsOf v }
  | (2, .varint n) => { t with dataType := int32 n }
  | (4, v) => { t with singles := t.singles ++ singlesOf v }
  | (8, .bytes b) => { t with name := textOf b }
  | (9, .bytes b) => { t with raw := b }
  | _ => t

def Initializer.ofBytes (b : Bytes) : Initializer :=
  (fieldsIn b).foldl step ⟨[], 0, [], "", []⟩

def Dimension.step (d : Dimension) : Field → Dimension
  | (1, .varint n) => .value (signed n)
  | (2, .bytes b) => .param (textOf b)
  | _ => d

def Dimension.ofBytes (b : Bytes) : Dimension := (fieldsIn b).foldl step .unset

/-- Reads a field of a tensor type into its element type and shape. -/
def ValueType.tensorStep (t : Int × Option (List Dimension)) : Field → Int × Option (List Dimension)
  | (1, .varint n) => (int32 n, t.2)
  | (2, .bytes b) =>
    let dims := (fieldsIn b).filterMap fun
      | (1, .bytes d) => some (Dimension.ofBytes d)
      | _ => none
    (t.1, some (t.2.getD [] ++ dims))
  | _ => t

def ValueType.step (t : ValueType) : Field → ValueType
  | (1, .bytes b) =>
    let start :=
      match t with
      | .tensor elementType shape => (elementType, shape)
      | _ => (0, none)
    let (elementType, shape) := (fieldsIn b).foldl tensorStep start
    .tensor elementType shape
  | _ => t

def Value.step (v : Value) : Field → Value
  | (1, .bytes b) => { v with name := textOf b }
  | (2, .bytes b) => { v with type := (fieldsIn b).foldl ValueType.step v.type }
  | _ => v

def Value.ofBytes (b : Bytes) : Value := (fieldsIn b).foldl step ⟨"", .unset⟩

def OperatorSet.step (s : OperatorSet) : Field → OperatorSet
  | (1, .bytes b) => { s with domain := textOf b }
  | (2, .varint n) => { s with version := signed n }
  | _ => s

def OperatorSet.ofBytes (b : Bytes) : OperatorSet := (fieldsIn b).foldl step ⟨"", 0⟩

def Graph.step (g : Graph) : Field → Graph
  | (1, .bytes b) => { g with operators := g.operators ++ [.ofBytes b] }
  | (2, .bytes b) => { g with name := textOf b }
  | (5, .bytes b) => { g with initializers := g.initializers ++ [.ofBytes b] }
  | (11, .bytes b) => { g with inputs := g.inputs ++ [.ofBytes b] }
  | (12, .bytes b) => { g with outputs := g.outputs ++ [.ofBytes b] }
  | _ => g

def Model.step (m : Model) : Field → Model
  | (1, .varint n) => { m with irVersion := signed n }
  | (2, .bytes b) => { m with producerName := textOf b }
  | (3, .bytes b) => { m with producerVersion := textOf b }
  | (7, .bytes b) =>
    { m with graph := some ((fieldsIn b).foldl Graph.step (m.graph.getD ⟨[], "", [], [], []⟩)) }
  | (8, .bytes b) => { m with operatorSets := m.operatorSets ++ [.ofBytes b] }
  | _ => m

/-- Reads an exchange file. -/
def Model.decode? (b : Bytes) : Option Model :=
  if Schema.accepts b then some ((fieldsIn b).foldl Model.step ⟨0, "", "", [], none⟩) else none

end Exchange

end NetPack
