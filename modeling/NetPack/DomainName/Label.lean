import NetPack.DomainName.Direction
import NetPack.DomainName.Joining
import NetPack.DomainName.Mapping
import NetPack.DomainName.Punycode

/-!
# Labels of domain names

A label is a part of a name between points. It has a full form, with all its characters, and an
ASCII form. They differ if the full form is not in ASCII: then the ASCII form is `xn--` and its
Punycode. A label can be given in either form.

Programs ask for a name in ASCII. `DomainName.ascii?` gives this form, which is the same for all
spellings of a name, and refuses texts that are no name.
-/

namespace NetPack

namespace DomainName

/-- A label in both forms. -/
structure Label where
  full : List Char
  ascii : List Char

/-- Are all characters in ASCII? -/
def isAscii (cs : List Char) : Bool := cs.all (·.toNat < 128)

/-- Characters that no label has. -/
def forbidden (c : Char) : Bool :=
  c.toNat ≤ 0x20 || c.toNat = 0x7f || "%#/:<>?@[\\]^|".contains c

/-- Can this be the full form of a label? It does not start with a mark, and its joiners fit. -/
def permitted (cs : List Char) : Bool :=
  !cs.any forbidden && !cs.head?.any Text.isMark && joinersFit cs &&
    (isAscii cs || cs.length ≤ 1000)

/-- Does a Punycode have a length that is allowed, and digits at its end? -/
def isCoded (cs : List Char) : Bool :=
  isAscii cs && !cs.isEmpty && cs.getLast? ≠ some '-' && cs.length ≤ 2000

/-- Reads a label whose characters were mapped and composed. The Punycode of a text that mapping or
composing would change is refused. -/
def Label.ofPiece? (piece : List Char) : Option Label :=
  match piece with
  | 'x' :: 'n' :: '-' :: '-' :: coded => do
    let full ← if isCoded coded then Punycode.decode? coded else none
    if full.all isKept && Text.compose full == full && permitted full then some ⟨full, piece⟩
    else none
  | _ =>
    if !permitted piece then none
    else if isAscii piece then some ⟨piece, piece⟩
    else some ⟨piece, "xn--".toList ++ Punycode.encode piece⟩

/-- The labels of a name. -/
def labels? (name : String) : Option (List Label) := do
  let cs ← mapped? name.toList
  let labels ← ((String.ofList (Text.compose cs)).splitOn ".").mapM fun piece =>
    Label.ofPiece? piece.toList
  if areDirected (labels.map (·.full)) then some labels else none

/-- The ASCII form of a name. -/
def ascii? (name : String) : Option String := do
  return ".".intercalate ((← labels? name).map fun l => String.ofList l.ascii)

end DomainName

end NetPack
