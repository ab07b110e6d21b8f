/-!
# Decimal numerals

The assembly language writes registers and literals with ASCII decimal digits, any number of
leading zeros included.  A numeral longer than `Numeral.maxDigits` is refused outright,
whatever its value: it is not a number out of range but a text nobody should convert.

* `isNumeral` is the shape, `value` the number a digit list stands for.
* `ofNat` and `ofInt` print in the same notation, without leading zeros.
* `isPrintable` tells the integers whose digits do not pass the same limit; longer ones are not
  printed in decimal, and where one would have to be, that is a fault.
-/

namespace Chip8.Numeral

/-- The longest digit list that is converted to a number. -/
def maxDigits : Nat := 4300

def digitValue (c : Char) : Nat := c.toNat - 48

/-- **The shape of a numeral:** at least one character, all of them ASCII digits. -/
def isNumeral (cs : List Char) : Bool := !cs.isEmpty && cs.all Char.isDigit

/-- The number a digit list stands for, most significant digit first. -/
def value (cs : List Char) : Nat := cs.foldl (fun n c => 10 * n + digitValue c) 0

def ofNat (n : Nat) : String := String.ofList (Nat.toDigits 10 n)

def ofInt : Int → String
  | .ofNat n => ofNat n
  | .negSucc n => "-" ++ ofNat (n + 1)

/-- Whether a number has at most so many decimal digits. -/
def fitsIn : Nat → Nat → Bool
  | 0, n => n == 0
  | digits + 1, n => n == 0 || fitsIn digits (n / 10)

/-- **Whether an integer is ever printed in decimal.**  The sign is not a digit. -/
def isPrintable (n : Int) : Bool := fitsIn maxDigits n.natAbs

/-- A text with spaces in front, up to a least width. -/
def rightAligned (width : Nat) (text : String) : String :=
  String.ofList (List.replicate (width - text.length) ' ') ++ text

end Chip8.Numeral
