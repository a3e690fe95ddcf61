import NetPack.Text.Blank

/-!
# Class labels

The labels of a classifier in the order of its outputs. In a text they stand one on a line; blanks
around a label and lines without a label do not count.
-/

namespace NetPack

/-- Labels in the order of the outputs. -/
abbrev Labels := List String

namespace Labels

/-- Reads one label per line. -/
def parse (text : String) : Labels :=
  ((text.splitOn "\n").map Text.trim).filter fun l => !l.isEmpty

end Labels

end NetPack
