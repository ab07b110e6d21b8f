import Chip8.Fault
import Chip8.Text.Hex

/-!
# Instruction words

Every CHIP-8 instruction is one word of sixteen bits, kept in memory with its high byte first.
This file holds the type and its three spellings: an integer, two bytes, four hexadecimal
digits.

* `Word.ofInt`, `Word.ofBytes` and `Word.ofHex` build a word, the first and the last of them
  only from what is one.
* `Word.bytes` and `Word.hex` are the ways back; `ofBytes_bytes` closes one of the circles.
* `Word.x`, `Word.y`, `Word.n`, `Word.kk` and `Word.nnn` read the five fields at the places
  where most instructions have them.

A word is a bounded natural number rather than a bit vector: patterns and masks may come in any
length, so the arithmetic around words is that of `Nat` and `Int` anyway.
-/

namespace Chip8

/-- **An instruction word,** sixteen bits. -/
structure Word where
  value : Nat
  value_lt : value < 0x10000
  deriving DecidableEq

namespace Word

/-! ## Building words -/

def ofInt (value : Int) : Except Fault Word :=
  if h : 0 ≤ value ∧ value < 0x10000 then .ok ⟨value.toNat, by omega⟩
  else .error (.wordRange value)

def ofBytes (high low : UInt8) : Word :=
  ⟨256 * high.toNat + low.toNat, by have := high.toNat_lt; have := low.toNat_lt; omega⟩

/-- The word of two integers, of each of which the lowest eight bits count. -/
def ofLowBytes (high low : Int) : Word := ofBytes (UInt8.ofInt high) (UInt8.ofInt low)

def hexValue? : List Char → Option Nat
  | [a, b, c, d] => do
    return 4096 * (← Hex.value? a) + 256 * (← Hex.value? b) + 16 * (← Hex.value? c)
      + (← Hex.value? d)
  | _ => none

/-- The word of exactly four hexadecimal digits, in either case. -/
def ofHex (text : String) : Except Fault Word :=
  match hexValue? text.toList with
  | some value => if h : value < 0x10000 then .ok ⟨value, h⟩ else .error (.wordDigits text)
  | none => .error (.wordDigits text)

/-! ## Reading words -/

/-- The four nibbles, the highest first. -/
def nibbles (w : Word) : List Nat :=
  [w.value / 4096, w.value / 256 % 16, w.value / 16 % 16, w.value % 16]

def x (w : Word) : Nat := w.value / 256 % 16

def y (w : Word) : Nat := w.value / 16 % 16

def n (w : Word) : Nat := w.value % 16

def kk (w : Word) : Nat := w.value % 256

def nnn (w : Word) : Nat := w.value % 4096

def hex (w : Word) : String := String.ofList (w.nibbles.map Hex.digit)

def smallHex (w : Word) : String := String.ofList (w.nibbles.map Nat.digitChar)

def bytes (w : Word) : List UInt8 := [UInt8.ofNat (w.value / 256), UInt8.ofNat (w.value % 256)]

/-! ## The circles close -/

theorem ofInt_value (w : Word) : ofInt w.value = .ok w := by
  have h : (0 : Int) ≤ w.value ∧ (w.value : Int) < 0x10000 := by have := w.value_lt; omega
  simp [ofInt, h]

/-- **A word is the word of its two bytes.** -/
theorem ofBytes_bytes (w : Word) :
    ofBytes (UInt8.ofNat (w.value / 256)) (UInt8.ofNat (w.value % 256)) = w := by
  obtain ⟨value, h⟩ := w
  simp only [ofBytes, UInt8.toNat_ofNat', mk.injEq]
  omega

end Word

end Chip8
