import Chip8.Rejection
import Chip8.Table
import Chip8.Token

/-!
# Encoding a line

One line of assembly becomes one word.  If its first token is a mnemonic of the table, the
other tokens are classified, and the first form of the mnemonic whose slots take them is filled
with their values.  Otherwise the line has to be a raw word, exactly four hexadecimal digits.

* `Table.encode` encodes a mnemonic with its operand tokens, `Table.encodeInstruction` says in
  addition where they stand if they are rejected.
* `Table.encodeLine` encodes a line and says where the word goes (`EncodedLine`).
* `Setback` is the failure of either: a rejection, after which an assembly run goes on, or a
  fault, after which it does not.

When no form takes the operands, the error says which of them is to blame: the first that no
form with that number of operands would take in its place, or the last one, if each would be
taken in its place by some form.
-/

namespace Chip8

/-- **A failure to encode:** what is rejected can be reported and skipped, a fault cannot. -/
inductive Setback (ρ : Type)
  | rejected (rejection : ρ)
  | faulted (fault : Fault)

def Setback.map {ρ σ : Type} (f : ρ → σ) : Setback ρ → Setback σ
  | rejected rejection => rejected (f rejection)
  | faulted fault => faulted fault

namespace Table

/-! ## Filling a form -/

def setField (values : Field → Int) (field : Field) (value : Int) : Field → Int :=
  fun other => if other = field then value else values other

/-- **The field values of accepted operands.**  A slot that fills no field is passed over; an
    operand greater than its field allows is rejected. -/
def fillFields (mnemonic : String) (given : List String) :
    List Slot → List Operand → (Field → Int) → Except (Setback Cause) (Field → Int)
  | slot :: slots, operand :: operands, values =>
    match slot.field with
    | none => fillFields mnemonic given slots operands values
    | some (.unknown name) => .error (.faulted (.missingField (some name)))
    | some (.known field) =>
      match operand.value? with
      | none => .error (.faulted .keywordInField)
      | some value =>
        if value ≤ field.limit then
          fillFields mnemonic given slots operands (setField values field value)
        else
          .error (.rejected (.operands mnemonic given
            (.range operand.text (slot.literal.getD field.placeholder) field.limit)))
  | _, _, values => .ok values

def fill (form : Form) (given : List String) (operands : List Operand) :
    Except (Setback Cause) Word := do
  let values ← fillFields form.mnemonic given form.slots operands fun _ => 0
  (form.encode values).mapError .faulted

/-! ## Blame -/

/-- The numbers of operands that forms take, each once, in order. -/
def operandCounts (forms : List Form) : List Nat :=
  (forms.map (·.slots.length)).eraseDups.mergeSort (· ≤ ·)

/-- Whether some form takes an operand in a place. -/
def takesAt (place : Nat) (operand : Operand) : List Form → Except Fault Bool
  | [] => .ok false
  | form :: rest =>
    match form.slots[place]? with
    | none => takesAt place operand rest
    | some slot =>
      match slot.accepts operand with
      | .ok false => takesAt place operand rest
      | other => other

/-- **The operand to blame:** the first that no candidate takes in its place, or the last. -/
def blamed (candidates : List Form) : Nat → List Operand → Except Fault (Option Operand)
  | _, [] => .ok none
  | place, operand :: rest =>
    match takesAt place operand candidates with
    | .error fault => .error fault
    | .ok taken =>
      if taken && !rest.isEmpty then blamed candidates (place + 1) rest else .ok (some operand)

def mismatch (mnemonic : String) (forms : List Form) (given : List String)
    (operands : List Operand) : Except (Setback Cause) Word := do
  let accepted ← (forms.mapM Form.signature).mapError .faulted
  let candidates := forms.filter (·.slots.length == operands.length)
  let blame ← (blamed candidates 0 operands).mapError .faulted
  let error : OperandError :=
    match candidates, blame with
    | _ :: _, some operand => .shape operand.text accepted
    | _, _ => .count (operandCounts forms) operands.length accepted
  .error (.rejected (.operands mnemonic given error))

/-! ## Instructions and lines -/

/-- **The form that operands select:** the first that accepts them. -/
def accepting? (operands : List Operand) : List Form → Except Fault (Option Form)
  | [] => .ok none
  | form :: rest =>
    match form.accepts operands with
    | .ok true => .ok (some form)
    | .ok false => accepting? operands rest
    | .error fault => .error fault

/-- **The word of a mnemonic and its operand tokens.** -/
def encode (table : Table) (mnemonic : String) (given : List String) :
    Except (Setback Cause) Word :=
  match table.forms mnemonic with
  | [] => .error (.rejected (.unencodable (" ".intercalate (mnemonic :: given))))
  | forms => do
    let operands ← (given.mapM Operand.classify).mapError .faulted
    match ← (accepting? operands forms).mapError .faulted with
    | some form => fill form given operands
    | none => mismatch (Text.uppercase mnemonic) forms given operands

/-- The word of an instruction that stands in some line, as far as the line is known. -/
def encodeInstruction (table : Table) (mnemonic : String) (given : List String)
    (line : Option Int) (source : Option String) : Except (Setback Rejection) Word :=
  (table.encode mnemonic given).mapError fun setback => setback.map (⟨line, source, ·⟩)

end Table

/-- **An encoded line.** -/
structure EncodedLine where
  line : Int
  address : Int
  word : Word
  source : String
  /-- Whether the line was a raw word and not an instruction. -/
  raw : Bool
  deriving DecidableEq

/-- An address as it is printed: a dollar sign and at least four characters in hexadecimal. -/
def addressText (address : Int) : String := "$" ++ Hex.padded 4 address

def EncodedLine.text (e : EncodedLine) : String :=
  addressText e.address ++ ": " ++ e.word.hex ++ "  " ++ Text.strip e.source

namespace Table

/-- The word of a line whose first token is no mnemonic. -/
def encodeRaw (source : String) : Except (Setback Cause) Word :=
  let text := Text.strip source
  match Word.ofHex text with
  | .ok word => .ok word
  | .error _ => .error (.rejected (.unencodable text))

/-- The word of a line, and whether the line was a raw word. -/
def lineWord (table : Table) (source : String) : Except (Setback Cause) (Word × Bool) :=
  match tokens source with
  | [] => .error (.rejected (.unencodable ""))
  | mnemonic :: given =>
    if table.isMnemonic mnemonic then (table.encode mnemonic given).map (·, false)
    else (encodeRaw source).map (·, true)

/-- **The encoding of a line** with its number and the address of its word. -/
def encodeLine (table : Table) (source : String) (line address : Int) :
    Except (Setback Rejection) EncodedLine :=
  match table.lineWord source with
  | .ok (word, raw) => .ok ⟨line, address, word, source, raw⟩
  | .error setback => .error (setback.map (⟨some line, some source, ·⟩))

end Table

end Chip8
