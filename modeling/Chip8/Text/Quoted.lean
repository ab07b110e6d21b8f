import Chip8.Text.Hex
import Chip8.Text.Printable

/-!
# Quoted text

File names and other foreign texts are quoted in messages, so that blanks at their ends and
characters without a picture stay visible.  Single quotes are used, unless the text holds a
single quote and no double quote.

* `quoteMark` chooses the mark, `escapeChar` writes one character between two of them.
* `quoted` is the whole form.
-/

namespace Chip8.Text

/-- The mark around a text: double only where that saves an escape. -/
def quoteMark (cs : List Char) : Char :=
  if cs.contains '\'' && !cs.contains '"' then '"' else '\''

/-- The two small hexadecimal digits of a byte-sized number, the four of a word-sized one, the
    eight of any other. -/
def escapeCode (code : Nat) : List Char :=
  if code < 0x100 then 'x' :: digits 2 else if code < 0x10000 then 'u' :: digits 4
  else 'U' :: digits 8
where
  /-- Small hexadecimal digits, filled with zeros to a width. -/
  digits (width : Nat) : List Char :=
    let ds := Nat.toDigits 16 code
    List.replicate (width - ds.length) '0' ++ ds

/-- **One character of a quoted text.**  The mark and the backslash get a backslash in front,
    tab, line feed and carriage return have letters, other unprintable characters their code. -/
def escapeChar (mark c : Char) : List Char :=
  if c == mark || c == '\\' then ['\\', c]
  else if c == '\t' then ['\\', 't']
  else if c == '\n' then ['\\', 'n']
  else if c == '\r' then ['\\', 'r']
  else if isPrintable c then [c]
  else '\\' :: escapeCode c.toNat

def quoted (text : String) : String :=
  let cs := text.toList
  let mark := quoteMark cs
  String.ofList (mark :: cs.flatMap (escapeChar mark) ++ [mark])

end Chip8.Text
