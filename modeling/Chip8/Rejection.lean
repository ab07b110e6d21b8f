import Chip8.Text.Blank
import Chip8.Text.Numeral

/-!
# Rejected lines

A line that the assembler cannot encode is rejected: it is left out of the ROM, and what is
wrong with it is kept for the report.

* `OperandError` lists what can be wrong with the operands of a known instruction.
* `Cause` adds the line that is no instruction at all, and causes that a caller words itself.
* `Rejection` is a cause with the place where it arose; `Rejection.message` is its full text,
  the place and the reason, the source line and a hint.
* `Diagnostic` is the short record of a dropped line, `report` the summary of many.
-/

namespace Chip8

/-! ## Causes -/

/-- **What is wrong with the operands of a known instruction.** -/
inductive OperandError
  /-- No form takes this many operands. -/
  | count (expected : List Nat) (given : Nat) (accepted : List String)
  /-- Some form takes this many, but none takes these; one operand is blamed. -/
  | shape (offending : String) (accepted : List String)
  /-- An operand is greater than its field allows. -/
  | range (offending : String) (slot : String) (limit : Nat)
  /-- An error in a caller's own words, any part of which may be missing. -/
  | stated (offending reason hint : Option String)
  deriving DecidableEq

/-- **Why a line is rejected.** -/
inductive Cause
  /-- A known mnemonic with operands it does not accept. -/
  | operands (mnemonic : String) (given : List String) (error : OperandError)
  /-- Neither a known mnemonic nor a word in hexadecimal. -/
  | unencodable (text : String)
  /-- A cause in a caller's own words. -/
  | stated (reason : String) (hint : Option String)
  deriving DecidableEq

def OperandError.offending : OperandError → Option String
  | count .. => none
  | shape offending _ => some offending
  | range offending .. => some offending
  | stated offending .. => offending

def shownOperands (given : List String) : String :=
  if given.isEmpty then "no operands" else ", ".intercalate given

/-- The reason where no other wording is given: the blamed operand, or all of them. -/
def refusal (mnemonic : String) (given : List String) : Option String → String
  | some offending => mnemonic ++ " does not accept operand '" ++ offending ++ "'"
  | none => mnemonic ++ " does not accept " ++ shownOperands given

def acceptedHint (mnemonic : String) (accepted : List String) : String :=
  mnemonic ++ " accepts: " ++
    " | ".intercalate (accepted.map fun s => if s.isEmpty then "no operands" else s)

namespace Cause

def reason : Cause → String
  | operands mnemonic _ (.count expected given _) =>
    mnemonic ++ " expects " ++ " or ".intercalate (expected.map Numeral.ofNat) ++
      " operand(s), got " ++ Numeral.ofNat given
  | operands mnemonic given (.shape offending _) => refusal mnemonic given (some offending)
  | operands mnemonic _ (.range offending ..) =>
    mnemonic ++ " operand '" ++ offending ++ "' out of range"
  | operands mnemonic given (.stated offending reason _) =>
    reason.getD (refusal mnemonic given offending)
  | unencodable text => "cannot encode '" ++ text ++ "' as a 2-byte opcode"
  | stated reason _ => reason

def hint : Cause → Option String
  | operands mnemonic _ (.count _ _ accepted) => some (acceptedHint mnemonic accepted)
  | operands mnemonic _ (.shape _ accepted) => some (acceptedHint mnemonic accepted)
  | operands _ _ (.range _ slot limit) => some (slot ++ " must be 0.." ++ Numeral.ofNat limit)
  | operands _ _ (.stated _ _ hint) => hint
  | unencodable _ => some "unknown mnemonic; raw opcodes must be exactly 4 hex digits"
  | stated _ hint => hint

end Cause

/-! ## Rejections -/

/-- **A cause and the place where it arose.**  Either part of the place may be unknown. -/
structure Rejection where
  line : Option Int
  source : Option String
  cause : Cause
  deriving DecidableEq

namespace Rejection

def reason (r : Rejection) : String := r.cause.reason

def hint (r : Rejection) : Option String := r.cause.hint

/-- **The full text of a rejection:** the place and the reason, then the source line, then the
    hint, each on a line of its own as far as they are known.  An empty hint is none. -/
def message (r : Rejection) : String :=
  let place := match r.line with
    | some number => "line " ++ Numeral.ofInt number ++ ": "
    | none => ""
  let source := match r.source with
    | some line => ["    " ++ Text.strip line]
    | none => []
  let hint := match r.hint with
    | some text => if text.isEmpty then [] else ["hint: " ++ text]
    | none => []
  "\n".intercalate ((place ++ "error: " ++ r.reason) :: source ++ hint)

end Rejection

/-! ## Diagnostics and the report -/

/-- **The record of a dropped line.** -/
structure Diagnostic where
  line : Int
  reason : String
  /-- The line without its margins. -/
  source : String
  deriving DecidableEq

def Diagnostic.text (d : Diagnostic) : String :=
  "line " ++ Numeral.ofInt d.line ++ ": " ++ d.reason

/-- The record of a rejection.  An unknown line has number zero. -/
def Rejection.diagnostic (r : Rejection) : Diagnostic :=
  ⟨r.line.getD 0, r.reason, Text.strip (r.source.getD "")⟩

/-- **The report on rejected lines:** each message with an empty line after it, then their
    number. -/
def report (rejections : List Rejection) : String :=
  let unit := if rejections.length = 1 then " line" else " lines"
  "\n".intercalate (rejections.flatMap (fun r => [r.message, ""]) ++
    [Numeral.ofNat rejections.length ++ unit ++ " dropped"])

end Chip8
