import Chip8.Text.Numeral
import Mathlib.Tactic.Ring

/-!
# Printing and reading decimal numerals

A number that the disassembler prints is read back by the assembler as the same number.  The
three facts behind that are about the digits of a single number: they are a numeral
(`isNumeral_toDigits`), they stand for the number (`value_toDigits`), and those of a literal
are never too many to be converted (`length_toDigits_le`).

`countP_isDigit` is the link to the condition under which a line can be read at all: a numeral
holds exactly as many digits as it has characters.
-/

namespace Chip8.Numeral

lemma isNumeral_iff {cs : List Char} :
    isNumeral cs = true ↔ cs ≠ [] ∧ ∀ c ∈ cs, c.isDigit = true := by
  simp [isNumeral]

@[simp] lemma toList_ofNat (n : Nat) : (ofNat n).toList = Nat.toDigits 10 n := by
  simp [ofNat]

lemma isDigit_of_mem_toDigits {n : Nat} {c : Char} (h : c ∈ Nat.toDigits 10 n) :
    c.isDigit = true :=
  Nat.isDigit_of_mem_toDigits (by decide) (by decide) h

lemma isNumeral_toDigits (n : Nat) : isNumeral (Nat.toDigits 10 n) = true :=
  isNumeral_iff.mpr ⟨Nat.toDigits_ne_nil, fun _ => isDigit_of_mem_toDigits⟩

/-- **The printed digits of a number stand for it.** -/
lemma value_toDigits (n : Nat) : value (Nat.toDigits 10 n) = n :=
  Nat.ofDigitChars_ten_toDigits

/-- A literal of sixteen bits has five digits at most, far fewer than may be converted. -/
lemma length_toDigits_le {n : Nat} (h : n < 0x10000) :
    (Nat.toDigits 10 n).length ≤ maxDigits := by
  have h5 : (Nat.toDigits 10 n).length ≤ 5 :=
    (Nat.length_toDigits_le_iff (by decide) (by decide)).mpr (by omega)
  exact Nat.le_trans h5 (by decide)

/-- The numbers of at most so many digits are those below a power of ten. -/
theorem fitsIn_iff (digits n : Nat) : fitsIn digits n = true ↔ n < 10 ^ digits := by
  induction digits generalizing n with
  | zero => simp [fitsIn]
  | succ digits ih =>
      rw [fitsIn, Bool.or_eq_true, beq_iff_eq, ih, Nat.pow_succ]
      have : 0 < 10 ^ digits := Nat.pow_pos (by decide)
      omega

lemma isPrintable_of_lt {n : Nat} (h : n < 0x10000) : isPrintable (n : Int) = true := by
  have h5 : n < 10 ^ 5 := by omega
  exact (fitsIn_iff _ _).mpr
    (Nat.lt_of_lt_of_le h5 (Nat.pow_le_pow_right (by decide) (by decide)))

/-- A numeral holds as many digits as it has characters. -/
lemma countP_isDigit {cs : List Char} (h : isNumeral cs = true) :
    cs.countP Char.isDigit = cs.length :=
  List.countP_eq_length.mpr (isNumeral_iff.mp h).2

end Chip8.Numeral
