/-!
# Log entries

Runs of the assembler and the disassembler leave a trail of short messages.  The library only
lists them, in order; who starts a run decides which of them to show.

* `Severity` is the rank of a message, `Severity.level` its number.
* `LogEntry` is a message with its severity.
* `levelOf?` knows the names by which a threshold may be chosen.
-/

namespace Chip8

inductive Severity
  | debug | info | warning
  deriving DecidableEq, Repr

namespace Severity

/-- The name of a rank, as it is printed in front of a message. -/
def name : Severity → String
  | debug => "DEBUG" | info => "INFO" | warning => "WARNING"

/-- The number of a rank; a threshold lets pass the ranks that are not below it. -/
def level : Severity → Nat
  | debug => 10 | info => 20 | warning => 30

end Severity

def levelNames : List (String × Nat) :=
  [("CRITICAL", 50), ("FATAL", 50), ("ERROR", 40), ("WARNING", 30), ("WARN", 30), ("INFO", 20),
    ("DEBUG", 10), ("NOTSET", 0)]

def levelOf? (name : String) : Option Nat := levelNames.lookup name

/-- **A message and its rank.** -/
structure LogEntry where
  severity : Severity
  message : String
  deriving DecidableEq, Repr

namespace LogEntry

def debug (message : String) : LogEntry := ⟨.debug, message⟩

def info (message : String) : LogEntry := ⟨.info, message⟩

def warning (message : String) : LogEntry := ⟨.warning, message⟩

def text (entry : LogEntry) : String := entry.severity.name ++ ": " ++ entry.message

def passes (threshold : Nat) (entry : LogEntry) : Bool := threshold ≤ entry.severity.level

end LogEntry

end Chip8
