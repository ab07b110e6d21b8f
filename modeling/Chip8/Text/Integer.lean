import Chip8.Text.Blank
import Chip8.Text.DecimalDigit
import Chip8.Text.Hex
import Chip8.Text.Numeral

/-!
# Integer literals

The load address may be set from the environment, as an integer literal: blanks around it, an
optional sign, an optional base mark (`0x`, `0o` or `0b`, in either case) and digits.  A single
underscore may stand between two digits and right after a base mark.  Without a mark the
literal is decimal, and a leading zero is then allowed on zero only.

* `readDigits` reads the digits of one base, `readMagnitude` a literal without sign.
* `parse?` reads the whole text; a text that is no literal has no value.

Digits and blanks may come from all of Unicode: before anything else is looked at, decimal
digits of every script turn into the ASCII ones.  The four information separators are the only
blanks that are not trimmed here.
-/

namespace Chip8.Integer

open Chip8.Text

/-- The blanks that may surround a literal. -/
def isMargin (c : Char) : Bool := isBlank c && !(0x1C ≤ c.toNat && c.toNat ≤ 0x1F)

/-- A decimal digit of any script as the ASCII digit of its value; any other character as it
    is. -/
def plainDigit (c : Char) : Char :=
  match decimalDigit? c with
  | some value => Hex.digit value
  | none => c

def digitIn? (base : Nat) (c : Char) : Option Nat := (Hex.value? c).filter (· < base)

/-- What may follow a digit: digits, each with at most one underscore in front of it. -/
def moreDigits (base : Nat) : List Char → Option (List Nat)
  | [] => some []
  | '_' :: c :: rest => do return (← digitIn? base c) :: (← moreDigits base rest)
  | c :: rest => do return (← digitIn? base c) :: (← moreDigits base rest)

/-- **The digits of a literal in one base:** at least one, and the first is no underscore. -/
def readDigits (base : Nat) : List Char → Option (List Nat)
  | [] => none
  | c :: rest => do return (← digitIn? base c) :: (← moreDigits base rest)

def ofDigits (base : Nat) (ds : List Nat) : Nat := ds.foldl (fun n d => base * n + d) 0

/-- Digits after a base mark, one underscore between them and the mark allowed. -/
def readMarked (base : Nat) : List Char → Option Nat
  | '_' :: rest => (readDigits base rest).map (ofDigits base)
  | rest => (readDigits base rest).map (ofDigits base)

/-- A decimal literal: no longer than a numeral may be, and a leading zero only on zero. -/
def readDecimal (cs : List Char) : Option Nat := do
  let ds ← readDigits 10 cs
  let n := ofDigits 10 ds
  guard (ds.length ≤ Numeral.maxDigits)
  guard (ds.head? ≠ some 0 ∨ n = 0)
  return n

def readMagnitude : List Char → Option Nat
  | '0' :: 'x' :: rest | '0' :: 'X' :: rest => readMarked 16 rest
  | '0' :: 'o' :: rest | '0' :: 'O' :: rest => readMarked 8 rest
  | '0' :: 'b' :: rest | '0' :: 'B' :: rest => readMarked 2 rest
  | cs => readDecimal cs

def readSigned : List Char → Option Int
  | '-' :: rest => (readMagnitude rest).map (- Int.ofNat ·)
  | '+' :: rest => (readMagnitude rest).map Int.ofNat
  | cs => (readMagnitude cs).map Int.ofNat

/-- **The integer a text spells,** if it spells one. -/
def parse? (text : String) : Option Int :=
  let body := ((text.toList.dropWhile isMargin).reverse.dropWhile isMargin).reverse
  readSigned (body.map plainDigit)

end Chip8.Integer
