import Chip8.Text.Blank

/-!
# Tokens of a line

A line of assembly is a mnemonic and its operands.  They are separated by spaces, tabs and
commas in any number and any mixture, so `DRW V1,V2, 5` and `DRW V1 V2 5` are the same line.

* `isSeparator` is the class of the three separators.
* `tokens` cuts a line: the blanks at its ends go first, by the wider notion of
  `Chip8.Text.isBlank`, then the separators cut, and empty pieces are dropped.

A blank that is no separator is therefore part of a token when it stands inside a line.
-/

namespace Chip8

def isSeparator (c : Char) : Bool := c == ' ' || c == '\t' || c == ','

/-- **The maximal runs of characters that are no separators,** in a line without its margins. -/
def tokenChars (line : List Char) : List (List Char) :=
  ((Text.trim line).splitOnP isSeparator).filter (!·.isEmpty)

def tokens (line : String) : List String := (tokenChars line.toList).map String.ofList

end Chip8
