import Chip8.Operand

/-!
# Operand slots

An instruction form lists its operands as slots.  A slot either takes a register or a literal
and puts it into a field of the word, or it asks for one particular word: the `I` of `LD I, V3`,
the `V0` of `JP V0, 512`.

* `Slot.accepts` tells whether a classified operand fits.
* `Slot.signature` is the slot as it appears in hints, `Slot.render` the operand that is read
  back out of a word.
-/

namespace Chip8

/-- **One operand position of an instruction form.** -/
structure Slot where
  kind : Operand.Kind
  field : Option FieldRef
  /-- The word that has to stand here. -/
  literal : Option String
  deriving DecidableEq, Repr

namespace Slot

def register (field : Field) : Slot := ⟨.register, some (.known field), none⟩

def immediate (field : Field) : Slot := ⟨.immediate, some (.known field), none⟩

def keyword (word : String) : Slot := ⟨.keyword, none, some word⟩

def fixedRegister (name : String) : Slot := ⟨.register, none, some name⟩

/-- **Whether an operand fits a slot.**  A fixed register is compared by index, so `v00` stands
    for `V0`; any other fixed word is compared by its capitals.  The index of a fixed register is
    read when a register is compared with it, and only then can its numeral be too long. -/
def accepts (slot : Slot) (operand : Operand) : Except Fault Bool :=
  match slot.literal with
  | none => .ok (operand.kind == slot.kind)
  | some word =>
    if slot.kind = .register then
      if operand.kind = .register then (readRegister word).map (operand.value? == ·)
      else .ok false
    else .ok (operand == .keyword word)

/-- The name by which a fault calls a field that is not there. -/
def fieldName? (slot : Slot) : Option String :=
  match slot.field with
  | some (.known field) => some field.name
  | some (.unknown name) => some name
  | none => none

/-- A slot in a hint: the fixed word, or the placeholder of the field. -/
def signature (slot : Slot) : Except Fault String :=
  match slot.literal, slot.field with
  | some word, _ => .ok word
  | none, some (.known field) => .ok field.placeholder
  | none, _ => .error (.missingField slot.fieldName?)

/-- The number that fills a slot, looked up among the fields of a word. -/
def fill? (slot : Slot) (fields : List (Field × Nat)) : Option Nat :=
  match slot.field with
  | some (.known field) => fields.lookup field
  | _ => none

/-- **The operand that a word has in a slot.**  Its value is printed in decimal. -/
def render (slot : Slot) (fields : List (Field × Nat)) : Except Fault String :=
  match slot.literal, slot.fill? fields with
  | some word, _ => .ok word
  | none, some value =>
    if Numeral.isPrintable value then
      .ok (if slot.kind = .register then "V" ++ Numeral.ofNat value else Numeral.ofNat value)
    else .error .overlongValue
  | none, none => .error (.missingField slot.fieldName?)

end Slot

end Chip8
