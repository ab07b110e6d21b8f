/-!
# Bits of integers

The masks of an instruction table are integers of any size and sign.  An opcode is compared
with them bit by bit, in two's complement with the sign continued without end, so that masking
is defined for negative integers too.

* `Bits.and` is the bitwise conjunction of two integers.
* `Bits.ones` counts the one bits of a magnitude, the measure by which the disassembler prefers
  one form over another.
-/

namespace Chip8.Bits

/-- The bits of `a` that are not bits of `b`. -/
def without (a b : Nat) : Nat := a - (a &&& b)

/-- **The bitwise conjunction of two integers** in two's complement.  A negative integer is the
    complement of the magnitude kept by `Int.negSucc`. -/
def and : Int → Int → Int
  | .ofNat a, .ofNat b => .ofNat (a &&& b)
  | .ofNat a, .negSucc b => .ofNat (without a b)
  | .negSucc a, .ofNat b => .ofNat (without b a)
  | .negSucc a, .negSucc b => .negSucc (a ||| b)

/-- The number of one bits of a natural number. -/
def ones (n : Nat) : Nat := (List.range (n.log2 + 1)).countP n.testBit

/-- On natural numbers the conjunction is that of `Nat`. -/
@[simp] theorem and_natCast (a b : Nat) : and (a : Int) (b : Int) = ((a &&& b : Nat) : Int) := rfl

end Chip8.Bits
