import Chip8.Encoding
import Chip8.Log
import Chip8.Text.Lines

/-!
# Assembling a source

A source is read line by line.  There are no labels, so one pass is enough: the words lie one
behind the other from the load address on, and a line that is rejected leaves no gap.

* `LineEvent` is what became of one line, `Run` what became of a source: the events in order
  and, if the run was broken off, the fault that did it.
* `assemble` is the run, `Run.code` its ROM image.
* `Run.log` is the trail of a run and `Run.listing` its listing.

Blank lines count, so that line numbers are those of the source, but nothing becomes of them.
A run that is broken off keeps what it had before.
-/

namespace Chip8

/-! ## Runs -/

/-- **What became of a line that is not blank.** -/
inductive LineEvent
  | encoded (line : EncodedLine)
  | dropped (rejection : Rejection)
  deriving DecidableEq

/-- **What became of a source.** -/
structure Run where
  events : List LineEvent := []
  /-- What broke the run off, if anything did. -/
  fault : Option Fault := none

namespace Run

def cons (event : LineEvent) (run : Run) : Run := { run with events := event :: run.events }

/-- The encoded lines, in address order. -/
def instructions (run : Run) : List EncodedLine :=
  run.events.filterMap fun
    | .encoded line => some line
    | .dropped _ => none

def rejections (run : Run) : List Rejection :=
  run.events.filterMap fun
    | .encoded _ => none
    | .dropped rejection => some rejection

def diagnostics (run : Run) : List Diagnostic := run.rejections.map (·.diagnostic)

def hasErrors (run : Run) : Bool := !run.rejections.isEmpty

/-- **The ROM image:** every word, high byte first. -/
def code (run : Run) : List UInt8 := run.instructions.flatMap (·.word.bytes)

def report (run : Run) : String := Chip8.report run.rejections

end Run

/-- The run over numbered lines, the first word of which goes to an address. -/
def assembleLines (table : Table) : Int → List (String × Nat) → Run
  | _, [] => {}
  | address, (source, number) :: rest =>
    if Text.isBlankLine source then assembleLines table address rest
    else
      match table.encodeLine source number address with
      | .ok line => (assembleLines table (address + 2) rest).cons (.encoded line)
      | .error (.rejected rejection) =>
        (assembleLines table address rest).cons (.dropped rejection)
      | .error (.faulted fault) => { fault := some fault }

/-- **The run over a source,** its lines numbered from one. -/
def assemble (table : Table) (loadAddress : Int) (source : String) : Run :=
  assembleLines table loadAddress ((Text.lines source).zipIdx 1)

/-! ## Trail and listing -/

/-- The trail of one line, under the name of its file. -/
def LineEvent.trace (file : String) : LineEvent → List LogEntry
  | .encoded line =>
    (if line.raw then
      [.debug ("line " ++ Numeral.ofInt line.line ++ ": raw opcode " ++ line.word.hex)]
      else []) ++
    [.debug (file ++ ": " ++ addressText line.address ++ " " ++ line.word.hex ++ " <- " ++
      Text.strip line.source)]
  | .dropped rejection => [.warning (file ++ ": dropped " ++ rejection.diagnostic.text)]

namespace Run

/-- **The trail of a run:** that of its lines and, unless it was broken off, the totals. -/
def log (file : String) (run : Run) : List LogEntry :=
  run.events.flatMap (·.trace file) ++
    (match run.fault with
      | some _ => []
      | none =>
        [.debug (file ++ ": " ++ Numeral.ofNat run.instructions.length ++ " instructions, " ++
          Numeral.ofNat run.rejections.length ++ " lines dropped")])

def listingHeading : String := "Address  Opcode  Line  Source"

def listingRow (line : EncodedLine) : String :=
  addressText line.address ++ "    " ++ line.word.hex ++ "    " ++
    Numeral.rightAligned 4 (Numeral.ofInt line.line) ++ "  " ++ Text.strip line.source

/-- The rows about dropped lines, behind an empty line and a heading; none if there are none. -/
def droppedRows (run : Run) : List String :=
  if run.hasErrors then
    "" :: "Dropped lines:" :: run.diagnostics.map fun d => "  " ++ d.text
  else []

/-- **The listing of a run:** a heading, a row for each word, and the dropped lines. -/
def listing (run : Run) : String :=
  Text.closeLines (listingHeading :: run.instructions.map listingRow ++ run.droppedRows)

end Run

end Chip8
