/-!
# Blank characters and the trimming built on them

Two notions of blank meet in a line of assembly.  Inside a line only the space, the tab and
the comma separate tokens; that set is `Chip8.isSeparator`.  At the two ends of a
line, and to tell an empty line from one that has to be encoded, the larger set of this file
counts: every character that Unicode treats as white space, together with the four
information separators.

* `isBlank` is the class, a closed list of twenty-nine code points.
* `trim` drops the blanks at both ends of a character list, `strip` does the same to a string.
* `isBlankLine` tells the lines that an assembly run skips.
-/

namespace Chip8.Text

/-- **A blank is one of twenty-nine code points:** the controls from tab to carriage return,
    the four information separators, the space, the next-line and no-break controls, and the
    spaces and separators that Unicode places at U+1680 and beyond. -/
def isBlank (c : Char) : Bool :=
  let code := c.toNat
  (0x09 ≤ code && code ≤ 0x0D) || (0x1C ≤ code && code ≤ 0x20) || code == 0x85 || code == 0xA0 ||
    code == 0x1680 || (0x2000 ≤ code && code ≤ 0x200A) || code == 0x2028 || code == 0x2029 ||
    code == 0x202F || code == 0x205F || code == 0x3000

/-- A character list without the blanks at its two ends. -/
def trim (cs : List Char) : List Char :=
  ((cs.dropWhile isBlank).reverse.dropWhile isBlank).reverse

def strip (text : String) : String := String.ofList (trim text.toList)

/-- A line that holds nothing but blanks (an empty line among them). -/
def isBlankLine (text : String) : Bool := text.toList.all isBlank

/-- Dropping the leading blanks leaves nothing exactly when there is nothing else. -/
theorem dropWhile_isBlank_eq_nil_iff (cs : List Char) :
    cs.dropWhile isBlank = [] ↔ cs.all isBlank = true := by
  induction cs with
  | nil => simp
  | cons c cs ih => by_cases h : isBlank c = true <;> simp [h, ih]

/-- **Trimming leaves nothing exactly when there was nothing but blanks.** -/
theorem trim_eq_nil_iff (cs : List Char) : trim cs = [] ↔ cs.all isBlank = true := by
  rw [trim, List.reverse_eq_nil_iff, dropWhile_isBlank_eq_nil_iff, List.all_reverse,
    ← dropWhile_isBlank_eq_nil_iff cs]
  constructor
  · intro h
    cases hd : cs.dropWhile isBlank with
    | nil => rfl
    | cons c rest =>
      have hc := List.head?_dropWhile_not isBlank cs
      rw [hd] at h hc
      simp_all
  · intro h; rw [h]; rfl

end Chip8.Text
