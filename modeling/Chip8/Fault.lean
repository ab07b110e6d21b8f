import Chip8.Field
import Chip8.Text.Numeral
import Chip8.Text.Quoted

/-!
# Faults

A line of assembly that cannot be encoded is rejected, and the run goes on with the next line;
that is `Chip8.Rejection`.  A **fault** is the other kind of failure: the operation as a whole
has no result.  A value lies outside of what the operation is defined for, a numeral is too
long to be converted, or a row of an instruction table is not fit for the use made of it.

`Fault` lists the causes and `Fault.message` words them.  A wording that would have to spell out
an integer which is too long for that says so instead.
-/

namespace Chip8

/-- **Why an operation has no result.** -/
inductive Fault
  /-- A value is no word: it is negative or needs more than sixteen bits. -/
  | wordRange (value : Int)
  /-- A text is not four hexadecimal digits. -/
  | wordDigits (text : String)
  /-- A numeral has more digits than are ever converted. -/
  | overlongNumeral (digits : Nat)
  /-- An integer has more decimal digits than are ever printed. -/
  | overlongValue
  /-- A pattern fixes a digit beyond its fourth place. -/
  | negativeShift
  /-- A value does not fit the field it is packed into. -/
  | fieldRange (field : Field) (value : Int)
  /-- A slot refers to a field that is not there, or to none although it needs one. -/
  | missingField (name : Option String)
  /-- A keyword stands in a slot that fills a field. -/
  | keywordInField
  /-- No whole word lies at an offset into a ROM. -/
  | offsetRange (offset : Int) (size : Nat)
  deriving DecidableEq

def Fault.overlongNotice : String :=
  "Exceeds the limit (" ++ Numeral.ofNat Numeral.maxDigits ++
    " digits) for integer string conversion; use sys.set_int_max_str_digits() to increase the limit"

def Fault.spelling (value : Int) (wording : String → String) : String :=
  if Numeral.isPrintable value then wording (Numeral.ofInt value) else overlongNotice

def Fault.message : Fault → String
  | .wordRange value => spelling value fun shown => "opcode out of range: " ++ shown
  | .wordDigits text => "expected 4 hex digits, got '" ++ text ++ "'"
  | .overlongNumeral digits =>
    "Exceeds the limit (" ++ Numeral.ofNat Numeral.maxDigits ++
      " digits) for integer string conversion: value has " ++ Numeral.ofNat digits ++
      " digits; use sys.set_int_max_str_digits() to increase the limit"
  | .negativeShift => "negative shift count"
  | .overlongValue => overlongNotice
  | .fieldRange field value =>
    spelling value fun shown => field.name ++ " out of range: " ++ shown
  | .missingField (some name) => Text.quoted name
  | .missingField none => "None"
  | .keywordInField => "'>' not supported between instances of 'NoneType' and 'int'"
  | .offsetRange offset size =>
    spelling offset fun shown =>
      "Offset " ++ shown ++ " leaves no full opcode in " ++ Numeral.ofNat size ++ " bytes"

end Chip8
