import Chip8.Failure
import Chip8.Files.FileSystem
import Chip8.Settings
import Chip8.Text.ControlSequence
import Chip8.Tool.Streams

/-!
# Scripts

A tool reads its input file and then knows everything it is going to do: what it prints, what it
writes and how it ends, unless a file cannot be written or a line cannot be printed.  That plan is a
script, and it is carried out step by step.

* `Effect` is one step, `Script` the list of them with the status at the end.
* `Script.performTo` carries a script out on a file system and on streams that may refuse lines,
  `Script.performOn` on streams that take every line, `Script.perform` on a store; `Outcome` is what
  is then to be seen.
* `logLines` are the messages of a run as the user wants them.

Messages may carry control sequences of terminals, from file names or source lines; an outcome
is what is to be seen where there is no terminal, so they are left out of everything but the log.
The first file that cannot be written and the first line that is refused end the script.  The error
decides the status, and it is reported; if the report is refused as well, nothing more can be said.
Only the log goes on without a line that is refused.
-/

namespace Chip8

/-- **One step of a tool.** -/
inductive Effect
  | out (line : String)
  | err (line : String)
  /-- A line of the log, which goes to standard error as it is. -/
  | log (line : String)
  /-- The report of a failure, with which a tool ends. -/
  | notice (line : String)
  | write (path : Path) (bytes : List UInt8)
  deriving DecidableEq

/-- **What a tool is going to do.** -/
structure Script where
  effects : List Effect
  /-- How the tool ends when all of them have been done. -/
  status : ExitStatus
  deriving DecidableEq

namespace Script

def after (first : List Effect) (script : Script) : Script :=
  { script with effects := first ++ script.effects }

/-- The script of a failure: its notice and its status.  What a verbose run says beyond that about a
    failure that should not have happened, namely where it came up, is left out. -/
def failing (activity : Option String) (failure : Failure) : Script :=
  ⟨[.notice (failure.notice activity)], failure.status⟩

end Script

/-- **What is to be seen after a tool has ended,** with the state of the files. -/
structure Outcome (σ : Type) where
  status : ExitStatus
  out : List String := []
  err : List String := []
  /-- Why the line was refused that ended the tool, if a refusal did. -/
  refusal : Option Refusal := none
  store : σ

section Performance

variable {σ : Type}

namespace Outcome

def withOut (line : String) (outcome : Outcome σ) : Outcome σ :=
  { outcome with out := Text.plain line :: outcome.out }

def withErr (line : String) (outcome : Outcome σ) : Outcome σ :=
  { outcome with err := Text.plain line :: outcome.err }

def withLog (line : String) (outcome : Outcome σ) : Outcome σ :=
  { outcome with err := line :: outcome.err }

/-- The end of a tool that cannot say what went wrong. -/
def silenced (refusal : Refusal) (state : σ) : Outcome σ :=
  { status := .buildError, refusal := some refusal, store := state }

/-- **The end of a tool that reports a failure.**  The last refusal is the one that counts. -/
def failing (streams : Streams) (failure : Failure) (refusal : Option Refusal) (state : σ) :
    Outcome σ :=
  match streams.refusal? 0 .err (Text.plain (failure.notice none)) with
  | none =>
    { status := failure.status, err := [Text.plain (failure.notice none)], refusal := refusal,
      store := state }
  | some last => silenced last state

end Outcome

namespace Script

/-- Steps done on a file system, with the status that holds if all succeed. -/
def performAll (files : FileSystem σ) (status : ExitStatus) :
    Streams → σ → List Effect → Outcome σ
  | _, state, [] => { status := status, store := state }
  | streams, state, .out line :: rest =>
    match streams.refusal? 0 .out (Text.plain line) with
    | none => (performAll files status streams.later state rest).withOut line
    | some refusal => .failing streams.later refusal.failure (some refusal) state
  | streams, state, .err line :: rest =>
    match streams.refusal? 0 .err (Text.plain line) with
    | none => (performAll files status streams.later state rest).withErr line
    | some refusal => .failing streams.later refusal.failure (some refusal) state
  | streams, state, .log line :: rest =>
    match streams.refusal? 0 .err line with
    | none => (performAll files status streams.later state rest).withLog line
    | some _ => performAll files status streams.later state rest
  | streams, state, .notice line :: rest =>
    match streams.refusal? 0 .err (Text.plain line) with
    | none => (performAll files status streams.later state rest).withErr line
    | some refusal => .silenced refusal state
  | streams, state, .write path bytes :: rest =>
    match files.write state path bytes with
    | .ok written => performAll files status streams.later written rest
    | .error e => .failing streams.later (.system e) none state

/-- **A script carried out on a file system** and on some streams. -/
def performTo (streams : Streams) (files : FileSystem σ) (script : Script) (state : σ) :
    Outcome σ :=
  performAll files script.status streams state script.effects

/-- A script carried out on a file system. -/
def performOn (files : FileSystem σ) (script : Script) (state : σ) : Outcome σ :=
  script.performTo .working files state

/-- A script carried out on a store. -/
def perform (script : Script) (store : Store) : Outcome Store :=
  script.performOn Store.fileSystem store

end Script

end Performance

/-- **The messages that the user wants to see.**  In verbose runs that is all of them, with their
    rank; otherwise those that pass the threshold of the settings, without it. -/
def logLines (settings : Settings) (verbose : Bool) (entries : List LogEntry) : List Effect :=
  if verbose then entries.map fun entry => .log entry.text
  else (entries.filter (·.passes settings.threshold)).map fun entry => .log entry.message

end Chip8
