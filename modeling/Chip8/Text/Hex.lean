/-!
# Hexadecimal digits

Words are written as four hexadecimal digits, addresses as at least four.  Digits are printed
in capitals and read in either case.

* `digit` and `value?` are the two directions on one digit; `value?_digit` ties them.
* `padded` writes an integer with a least width; a minus sign counts towards the width.
-/

namespace Chip8.Hex

def digit (n : Nat) : Char := if n < 10 then Char.ofNat (48 + n) else Char.ofNat (55 + n)

/-- The value of a hexadecimal digit, capital or small; only ASCII characters are digits. -/
def value? (c : Char) : Option Nat :=
  let code := c.toNat
  if 48 ≤ code ∧ code ≤ 57 then some (code - 48)
  else if 65 ≤ code ∧ code ≤ 70 then some (code - 55)
  else if 97 ≤ code ∧ code ≤ 102 then some (code - 87)
  else none

/-- The capital digits of a number, most significant first; zero is the single digit `0`. -/
def digits (n : Nat) : List Char := (Nat.toDigits 16 n).map Char.toUpper

/-- **An integer in at least `width` characters,** filled with zeros after the sign. -/
def padded (width : Nat) : Int → String
  | .ofNat n => String.ofList (fill width (digits n))
  | .negSucc n => String.ofList ('-' :: fill (width - 1) (digits (n + 1)))
where
  /-- Zeros in front, up to the width. -/
  fill (width : Nat) (ds : List Char) : List Char := List.replicate (width - ds.length) '0' ++ ds

theorem value?_digit {n : Nat} (h : n < 16) : value? (digit n) = some n := by
  have : ∀ m : Fin 16, value? (digit m) = some m.val := by decide
  exact this ⟨n, h⟩

end Chip8.Hex
