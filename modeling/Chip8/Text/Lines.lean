/-!
# Lines of a text

A text falls into lines at every line boundary that Unicode knows, not only at the line feed.
A carriage return followed by a line feed is one boundary; a boundary at the very end of the
text does not open another, empty line.

* `isLineBreak` is the class of boundary characters, ten code points.
* `splitLines` cuts a character list, `lines` a string.

The recursion of `splitLines` reads one character and puts it in front of the first line of
the rest; "no line at all" and "one empty line" are told apart by `[]` and `[[]]`.
-/

namespace Chip8.Text

/-- The characters that end a line: line feed, vertical tab, form feed, carriage return, the
    file, group and record separators, next line, and the line and paragraph separators. -/
def isLineBreak (c : Char) : Bool :=
  let code := c.toNat
  (0x0A ≤ code && code ≤ 0x0D) || (0x1C ≤ code && code ≤ 0x1E) || code == 0x85 ||
    code == 0x2028 || code == 0x2029

/-- **The lines of a character list, without their breaks.** -/
def splitLines : List Char → List (List Char)
  | [] => []
  | '\r' :: '\n' :: rest => [] :: splitLines rest
  | c :: rest =>
    if isLineBreak c then [] :: splitLines rest
    else
      match splitLines rest with
      | [] => [[c]]
      | line :: more => (c :: line) :: more

def lines (text : String) : List String := (splitLines text.toList).map String.ofList

/-- Each line closed by a line feed, the form in which lists of lines go into a file. -/
def closeLines (ls : List String) : String := String.intercalate "\n" ls ++ "\n"

end Chip8.Text
