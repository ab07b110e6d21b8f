import Chip8.Bits
import Chip8.Pattern
import Chip8.Slot
import Chip8.Word

/-!
# Instruction forms

A form is one way of writing one instruction: a mnemonic, the slots of its operands and the
pattern of its words.  Everything the assembler and the disassembler know about an instruction
they read off its form.

* `Form.encode` packs field values into a word, `Form.extract` unpacks them.
* `Form.fits` holds of the words a form can produce, `Form.matchesCode` of those it is read
  from; the second is wider where a family of instructions ignores some digits.
* `Form.render` is the assembly text of a word, `Form.accepts` the fit of a list of operands.

The functions take integers of any size, because tables of any kind may be loaded; on words and
four-digit patterns packing and unpacking are inverse to each other.
-/

namespace Chip8

/-- **One row of an instruction table.** -/
structure Form where
  mnemonic : String
  slots : List Slot
  pattern : String
  description : String := ""
  /-- Whether the disassembler prints this form; other spellings are only read. -/
  canonical : Bool := true
  /-- The bits the disassembler looks at, where they are not those the pattern fixes. -/
  decodeMask : Option Int := none
  deriving DecidableEq

namespace Form

/-! ## Bits -/

def mask (form : Form) : Except Fault Nat := Pattern.mask form.pattern

/-- The word with all fields zero. -/
def value (form : Form) : Except Fault Nat := Pattern.value form.pattern

/-- The bits in which a code has to agree with the value to be read as this form. -/
def matchMask (form : Form) : Except Fault Int :=
  match form.decodeMask with
  | some bits => .ok bits
  | none => form.mask.map Int.ofNat

def layout (form : Form) : Layout := Pattern.layout form.pattern

def matchesCode (form : Form) (code : Int) : Except Fault Bool := do
  let bits ← form.matchMask
  let value ← form.value
  return Bits.and code bits == value

/-- Whether a code has all the digits that the pattern fixes. -/
def fits (form : Form) (code : Int) : Except Fault Bool := do
  let bits ← form.mask
  let value ← form.value
  return Bits.and code bits == value

/-! ## Packing and unpacking -/

/-- Field values put into a word one after the other; the first one out of range is reported. -/
def packInto (values : Field → Int) : Layout → Nat → Except Fault Nat
  | [], bits => .ok bits
  | (field, span) :: rest, bits =>
    let value := values field
    if 0 ≤ value ∧ value < (1 <<< span.width : Nat) then
      packInto values rest (bits ||| value.toNat <<< span.shift)
    else .error (.fieldRange field value)

/-- **The word of some field values.** -/
def encode (form : Form) (values : Field → Int) : Except Fault Word := do
  let bits ← packInto values form.layout (← form.value)
  Word.ofInt bits

def extractSpan (code : Int) (span : Span) : Nat :=
  (code >>> span.shift % (1 <<< span.width : Nat)).toNat

/-- **The field values of a code.** -/
def extract (form : Form) (code : Int) : List (Field × Nat) :=
  form.layout.map fun (field, span) => (field, extractSpan code span)

/-! ## Texts -/

def signature (form : Form) : Except Fault String := do
  return ", ".intercalate (← form.slots.mapM Slot.signature)

/-- The operands of a code, one text for each slot. -/
def renderOperands (form : Form) (code : Int) : Except Fault (List String) :=
  form.slots.mapM fun slot => slot.render (form.extract code)

/-- **A code as a line of assembly.** -/
def render (form : Form) (code : Int) : Except Fault String := do
  let operands ← form.renderOperands code
  return if operands.isEmpty then form.mnemonic
    else form.mnemonic ++ " " ++ ", ".intercalate operands

/-- A form in one line, for messages about tables. -/
def summary (form : Form) : Except Fault String := do
  return "InstructionForm(" ++ form.mnemonic ++ " " ++ (← form.signature) ++ " -> " ++
    form.pattern ++ ")"

/-! ## Fitting operands -/

/-- Whether operands fit slots one by one, up to the first that does not. -/
def slotsAccept : List Slot → List Operand → Except Fault Bool
  | slot :: slots, operand :: operands =>
    match slot.accepts operand with
    | .ok true => slotsAccept slots operands
    | other => other
  | _, _ => .ok true

/-- **Whether a list of operands fits a form:** one for each slot. -/
def accepts (form : Form) (operands : List Operand) : Except Fault Bool :=
  if operands.length = form.slots.length then slotsAccept form.slots operands else .ok false

end Form

end Chip8
