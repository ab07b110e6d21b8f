import Chip8.Tool

/-!
# The command line

The first argument names the tool, the rest are its arguments.  All that is decided, is decided
by `Chip8.Tool`; here the file system is asked and the steps of the script are done.
-/

namespace Chip8.CommandLine

def systemError (path : Path) : IO.Error → SystemError
  | .noFileOrDirectory .. => .about .missing path
  | .permissionDenied .. => .about .denied path
  | .inappropriateType _ code _ => .about (.ofCode code.toNat) path
  | .invalidArgument _ code _ => .about (.ofCode code.toNat) path
  | e => ⟨.other, none, toString e, none⟩

def read (path : Path) : IO (Except SystemError (List UInt8)) := do
  match ← (IO.FS.readBinFile path.text).toBaseIO with
  | .ok bytes => return .ok bytes.toList
  | .error e => return .error (systemError path e)

def look (text : String) : IO Store.Look := do
  match ← (IO.FS.readBinFile text).toBaseIO with
  | .ok _ => return .file
  | .error (.permissionDenied ..) => return .file
  | .error (.inappropriateType _ code _) => return if code = 21 then .directory else .absent
  | .error _ => return .absent

/-- A line on a stream; only a terminal gets its control sequences. -/
def say (stream : IO.FS.Stream) (line : String) : IO (Option Refusal) := do
  let shown := if ← stream.isTty then line else Text.plain line
  match ← (do stream.putStrLn shown; stream.flush : IO Unit).toBaseIO with
  | .ok _ => return none
  | .error e => return some (.device ⟨.other, none, toString e, none⟩)

/-- The report of a failure. -/
def report (failure : Failure) : IO ExitStatus := do
  match ← say (← IO.getStderr) (failure.notice none) with
  | none => return failure.status
  | some _ => return .buildError

/-- The steps of a script, up to the first file that cannot be written and the first line that is
    refused. -/
def perform (status : ExitStatus) : List Effect → IO ExitStatus
  | [] => return status
  | .out line :: rest => do
    match ← say (← IO.getStdout) line with
    | none => perform status rest
    | some refusal => report refusal.failure
  | .err line :: rest => do
    match ← say (← IO.getStderr) line with
    | none => perform status rest
    | some refusal => report refusal.failure
  | .log line :: rest => do
    let _ ← (IO.eprintln line).toBaseIO
    perform status rest
  | .notice line :: rest => do
    match ← say (← IO.getStderr) line with
    | none => perform status rest
    | some _ => return .buildError
  | .write path bytes :: rest => do
    match ← (IO.FS.writeBinFile path.text ⟨bytes.toArray⟩).toBaseIO with
    | .ok _ => perform status rest
    | .error e => report (.system (systemError path e))

/-- A plan carried out on the files of the machine. -/
def carryOut : Plan → IO ExitStatus
  | .version line => do
    match ← say (← IO.getStdout) line with
    | none => return .success
    | some _ => return .buildError
  | .process input script => do
    let planned := script (← read input)
    perform planned.status planned.effects

def settings : IO Settings := do
  let address ← IO.getEnv "CHASM_LOAD_ADDRESS"
  let level ← IO.getEnv "CHASM_LOG_LEVEL"
  return Settings.ofEnvironment fun name =>
    if name = "CHASM_LOAD_ADDRESS" then address
    else if name = "CHASM_LOG_LEVEL" then level
    else none

def run (tool : Tool) (texts : List String) : IO ExitStatus := do
  let refuse (e : UsageError) : IO ExitStatus := do
    IO.eprintln ("Error: " ++ e.message)
    return e.status
  match Arguments.parse tool.rules texts with
  | .error e => refuse e
  | .ok arguments =>
    let looks ← arguments.fileTexts.mapM fun text => do return (text, ← look text)
    match tool.plan (fun text => (looks.lookup text).getD .absent) (← settings) arguments with
    | .error e => refuse e
    | .ok plan => carryOut plan

end Chip8.CommandLine

def main : List String → IO UInt32
  | "c8asm" :: texts => do
    return UInt32.ofNat (← Chip8.CommandLine.run .assembler texts).code
  | "c8disasm" :: texts => do
    return UInt32.ofNat (← Chip8.CommandLine.run .disassembler texts).code
  | _ => do
    IO.eprintln "Usage: c8asm|c8disasm [OPTIONS] INPUT_FILE"
    return 2
