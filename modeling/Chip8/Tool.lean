import Chip8.Tool.Assembler
import Chip8.Tool.Disassembler

/-!
# The two tools

`Tool.runTo` is a whole run of a tool on a file system and on its standard streams: its arguments
are read and checked, the settings are taken from the environment, the input file is read and the
script that follows from it is carried out.

* `Plan` is what a checked command line asks for.
* `Tool.plan` makes the plan, `Plan.performTo` carries it out.
* `Tool.runOn` is the run on streams that take every line, `Tool.run` the one on a store.

Asking for the version comes before everything else that a command line may be right or wrong
about, once its options can be read at all.
-/

namespace Chip8

inductive Tool
  | assembler | disassembler
  deriving DecidableEq, Repr

/-- **What a tool is to do.** -/
inductive Plan
  | version (line : String)
  | process (input : Path) (script : Except SystemError (List UInt8) → Script)

/-- **A plan carried out on a file system** and on some streams. -/
def Plan.performTo {σ : Type} (streams : Streams) (files : FileSystem σ) (state : σ) :
    Plan → Outcome σ
  | version line =>
    match streams.refusal? 0 .out line with
    | none => { status := .success, out := [line], store := state }
    | some refusal => .silenced refusal state
  | process input script => (script (files.read state input)).performTo streams files state

/-- A plan carried out on a file system. -/
def Plan.performOn {σ : Type} (files : FileSystem σ) (state : σ) (plan : Plan) : Outcome σ :=
  plan.performTo .working files state

namespace Tool

def name : Tool → String
  | assembler => "c8asm"
  | disassembler => "c8disasm"

def rules : Tool → List OptionRule
  | assembler => AssemblerRequest.rules
  | disassembler => DisassemblerRequest.rules

def versionLine (tool : Tool) : String := tool.name ++ ", version 1.0.0"

/-- **The plan that arguments ask for.** -/
def plan (tool : Tool) (look : String → Store.Look) (settings : Settings)
    (arguments : Arguments) : Except UsageError Plan :=
  if arguments.has .version then .ok (.version tool.versionLine)
  else
    match tool with
    | assembler => do
      let request ← AssemblerRequest.ofArguments look arguments
      return .process request.input (request.script settings)
    | disassembler => do
      let request ← DisassemblerRequest.ofArguments look arguments
      return .process request.input (request.script settings)

/-- **A run of a tool on a file system** and on some streams. -/
def runTo {σ : Type} (streams : Streams) (files : FileSystem σ) (tool : Tool)
    (env : String → Option String) (texts : List String) (state : σ) :
    Except UsageError (Outcome σ) := do
  let arguments ← Arguments.parse tool.rules texts
  let plan ← tool.plan (files.look state) (Settings.ofEnvironment env) arguments
  return plan.performTo streams files state

/-- A run of a tool on a file system. -/
def runOn {σ : Type} (files : FileSystem σ) (tool : Tool) (env : String → Option String)
    (texts : List String) (state : σ) : Except UsageError (Outcome σ) :=
  tool.runTo .working files env texts state

/-- A run of a tool on a store. -/
def run (tool : Tool) (env : String → Option String) (texts : List String) (store : Store) :
    Except UsageError (Outcome Store) :=
  tool.runOn Store.fileSystem env texts store

end Tool

end Chip8
