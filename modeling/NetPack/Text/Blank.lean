/-!
# Blanks

`Text.isBlank` is the White_Space property of characters; `Text.trim` removes blanks from both ends
of a text.
-/

namespace NetPack

namespace Text

/-- Ranges of characters with the property White_Space. -/
def blankRanges : List (Nat × Nat) :=
  [(0x9, 0xd), (0x20, 0x20), (0x85, 0x85), (0xa0, 0xa0), (0x1680, 0x1680), (0x2000, 0x200a),
   (0x2028, 0x2029), (0x202f, 0x202f), (0x205f, 0x205f), (0x3000, 0x3000)]

/-- Is the character a blank? -/
def isBlank (c : Char) : Bool :=
  blankRanges.any fun (first, last) => first ≤ c.toNat && c.toNat ≤ last

/-- The text without the blanks at its ends. -/
def trim (s : String) : String :=
  String.ofList ((s.toList.dropWhile isBlank).reverse.dropWhile isBlank).reverse

/-- Does the text hold nothing but blanks? -/
def allBlank (s : String) : Bool := s.toList.all isBlank

end Text

end NetPack
