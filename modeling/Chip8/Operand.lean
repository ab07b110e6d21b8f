import Chip8.Fault
import Chip8.Text.Uppercase

/-!
# Operands

Before an instruction form is looked for, every operand token is classified by its shape
alone.  The kind matters: in `SE V1, V5` and `SE V1, 5` the second operand decides which
instruction is meant.

* `readNumber` and `readRegister` read the two numeric shapes.
* `Operand` is a classified token, `Operand.classify` the classification.

A number that does not fit sixteen bits is no number at all, and neither is the index of such
a register; both end up as invalid operands.  Whether a number fits the field it is meant for
is a later question, so `V99` is a register here.
-/

namespace Chip8

/-! ## Numeric shapes -/

/-- **A literal of at most sixteen bits.**  A numeral that is longer than any numeral may be is
    a fault, whatever it is worth. -/
def readDigits (cs : List Char) : Except Fault (Option Nat) :=
  if Numeral.isNumeral cs then
    if cs.length ≤ Numeral.maxDigits then
      .ok (some (Numeral.value cs) |>.filter (· < 0x10000))
    else .error (.overlongNumeral cs.length)
  else .ok none

def isRegisterSigil (c : Char) : Bool := c == 'V' || c == 'v'

def readIndex : List Char → Except Fault (Option Nat)
  | c :: rest => if isRegisterSigil c then readDigits rest else .ok none
  | [] => .ok none

def readNumber (token : String) : Except Fault (Option Nat) := readDigits token.toList

def readRegister (token : String) : Except Fault (Option Nat) := readIndex token.toList

/-! ## Classified operands -/

/-- The words that name special registers or addressing forms, in alphabetical order. -/
def keywords : List String := ["B", "DT", "F", "I", "K", "ST"]

/-- **A classified operand token.**  All kinds keep the text of the token; a keyword keeps it in
    capitals. -/
inductive Operand
  | register (text : String) (index : Nat)
  | immediate (text : String) (value : Nat)
  | keyword (text : String)
  | invalid (text : String)
  deriving DecidableEq, Repr

namespace Operand

inductive Kind
  | register | immediate | keyword | invalid
  deriving DecidableEq, Repr

def kind : Operand → Kind
  | register .. => .register
  | immediate .. => .immediate
  | keyword _ => .keyword
  | invalid _ => .invalid

def text : Operand → String
  | register t _ => t
  | immediate t _ => t
  | keyword t => t
  | invalid t => t

def value? : Operand → Option Nat
  | register _ i => some i
  | immediate _ v => some v
  | keyword _ => none
  | invalid _ => none

/-- A token that is neither a register nor a literal is a keyword or invalid. -/
def ofWord (token : String) : Operand :=
  let word := Text.uppercase token
  if keywords.contains word then keyword word else invalid token

/-- **The operand of a token.** -/
def classify (token : String) : Except Fault Operand := do
  match ← readRegister token with
  | some index => return register token index
  | none =>
    match ← readNumber token with
    | some value => return immediate token value
    | none => return ofWord token

end Operand

end Chip8
