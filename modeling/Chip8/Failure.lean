import Chip8.Files.SystemError
import Chip8.Rejection
import Chip8.Fault
import Chip8.Text.Utf8

/-!
# Failures of a whole run

Everything that can end the work of a tool or a session early, and what is then said and
returned.

* `Failure` lists the causes, `Failure.message` their wording.
* `ExitStatus` are the four ways a tool ends, `Failure.status` the one that a failure leads to.
* `Failure.notice` is the line that a tool prints.

The status separates what the toolchain found wrong, what the user has to put right about files
and arguments, and what should not have happened.
-/

namespace Chip8

/-- **Why a run ends early.** -/
inductive Failure
  /-- A line was rejected where rejection is final. -/
  | rejected (rejection : Rejection)
  | emptyRom (path : Path)
  /-- Another objection of the toolchain, in its own words. -/
  | objection (message : String)
  | badArgument (message : String)
  | system (error : SystemError)
  | undecodable (fault : Utf8.Fault)
  | faulted (fault : Fault)
  | unnamed (error : NameError)
  /-- Something else that should not have happened. -/
  | unexpected (message : String)

/-- **How a tool ends.** -/
inductive ExitStatus
  | success | buildError | invalidArguments | internalError
  deriving DecidableEq, Repr

def ExitStatus.code : ExitStatus → Nat
  | success => 0 | buildError => 1 | invalidArguments => 2 | internalError => 3

/-- The status after an error of the file system: what is missing or must not be touched counts
    as a wrong argument, and a path with a null character should not have come so far. -/
def SystemError.status (e : SystemError) : ExitStatus :=
  match e.kind with
  | .missing | .denied => .invalidArguments
  | .nullCharacter => .internalError
  | _ => .buildError

namespace Failure

def message : Failure → String
  | rejected rejection => rejection.message
  | emptyRom path => path.text ++ " is empty"
  | objection message => message
  | badArgument message => message
  | system error => error.message
  | undecodable fault => fault.message
  | faulted fault => fault.message
  | unnamed error => error.message
  | unexpected message => message

/-- **The status that a failure leads to.** -/
def status : Failure → ExitStatus
  | rejected _ => .buildError
  | emptyRom _ => .buildError
  | objection _ => .buildError
  | badArgument _ => .invalidArguments
  | system error => error.status
  | undecodable _ => .internalError
  | faulted _ => .internalError
  | unnamed _ => .internalError
  | unexpected _ => .internalError

/-- What the toolchain objects to is announced with the activity, if one is named. -/
def objectionHead : Option String → String
  | some activity => if activity.isEmpty then "Error: " else activity ++ " error: "
  | none => "Error: "

def head (activity : Option String) : Failure → String
  | rejected _ => objectionHead activity
  | emptyRom _ => objectionHead activity
  | objection _ => objectionHead activity
  | badArgument _ => "Error: "
  | system e => if e.kind = .nullCharacter then "Internal error: " else "Error: "
  | undecodable _ => "Internal error: "
  | faulted _ => "Internal error: "
  | unnamed _ => "Internal error: "
  | unexpected _ => "Internal error: "

/-- **The line that a tool prints about a failure.** -/
def notice (activity : Option String) (failure : Failure) : String :=
  failure.head activity ++ failure.message

end Failure

/-- **The text of a source file,** from what reading its bytes gave. -/
def sourceText (content : Except SystemError (List UInt8)) : Except Failure String := do
  let bytes ← content.mapError .system
  (Utf8.readText bytes).mapError .undecodable

end Chip8
