import Chip8.Text.CaseTable

/-!
# Upper-case text

Mnemonics and keywords are written in either case, and case is folded by the full upper-case
mapping of Unicode: a ligature grows into its letters, the long s and the dotless i become the
ASCII letters `S` and `I`.  A source may therefore spell `ST` with a single character.

* `upperChar` is the mapping of one character, one to three characters long.
* `uppercase` folds a whole text.

The ASCII letters are decided before the tables are looked at; `upperChar_ascii` says that on
ASCII the mapping is the core library's.
-/

namespace Chip8.Text

/-- The upper-case form of a character beyond ASCII, as the tables give it. -/
def upperFromTables (c : Char) : List Char :=
  match caseExpansions.lookup c.toNat with
  | some codes => codes.map Char.ofNat
  | none =>
    match caseRuns.find? (·.holds c.toNat) with
    | some run => [Char.ofNat (c.toNat + run.distance).toNat]
    | none => [c]

/-- **The upper-case form of one character.** -/
def upperChar (c : Char) : List Char :=
  if c.toNat < 0x80 then [c.toUpper] else upperFromTables c

def uppercase (text : String) : String := String.ofList (text.toList.flatMap upperChar)

/-- On ASCII the mapping is the core library's, one character for one. -/
theorem upperChar_ascii {c : Char} (h : c.toNat < 0x80) : upperChar c = [c.toUpper] :=
  if_pos h

end Chip8.Text
