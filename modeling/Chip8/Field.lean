/-!
# Operand fields of an instruction word

An instruction word carries its operands in fields of a few adjoining nibbles.  There are five
of them, and the names are those of every CHIP-8 reference:

* `x` and `y`, one nibble each, hold register numbers,
* `n` is one nibble, `kk` a byte and `nnn` twelve bits, all three holding literals.

`Field.width` gives the bits an operand of that name may use and `Field.placeholder` the word
that stands for it in a hint.  Where a field sits in a word is decided by each pattern
separately (`Chip8.Pattern.layout`).
-/

namespace Chip8

inductive Field
  | x | y | n | kk | nnn
  deriving DecidableEq, Repr

namespace Field

/-- The name of a field, as it is written in patterns and messages. -/
def name : Field → String
  | x => "x" | y => "y" | n => "n" | kk => "kk" | nnn => "nnn"

/-- The field of a name, if the name is one of the five. -/
def ofName? : String → Option Field
  | "x" => some x | "y" => some y | "n" => some n | "kk" => some kk | "nnn" => some nnn
  | _ => none

/-- **The bits an operand of this field may use.** -/
def width : Field → Nat
  | x => 4 | y => 4 | n => 4 | kk => 8 | nnn => 12

def limit (field : Field) : Nat := 1 <<< field.width - 1

/-- The word for an operand of this field in hints and signatures. -/
def placeholder : Field → String
  | x => "Vx" | y => "Vy" | n => "n" | kk => "kk" | nnn => "addr"

theorem ofName?_name (field : Field) : ofName? field.name = some field := by
  cases field <;> rfl

end Field

/-- **A reference to a field by name.**  A row of a table may name a field that does not exist;
    nothing goes wrong until the row is used in a way that needs the field. -/
inductive FieldRef
  | known (field : Field)
  | unknown (name : String)
  deriving DecidableEq, Repr

def FieldRef.ofName (name : String) : FieldRef :=
  match Field.ofName? name with
  | some field => known field
  | none => unknown name

end Chip8
