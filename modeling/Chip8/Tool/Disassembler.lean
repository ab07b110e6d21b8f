import Chip8.Disassembly
import Chip8.Failure
import Chip8.Files.Content
import Chip8.Files.Naming
import Chip8.Tool.Arguments
import Chip8.Tool.Script

/-!
# The disassembler tool

`c8disasm` turns a ROM into an assembly file that the assembler takes, and shows the words as a
table where that is wanted.

* `DisassemblerRequest` is a command line that has been checked.
* `DisassemblerRequest.script` is what the tool does once the input has been read.

A ROM without bytes is refused; one that is too large for the memory is only warned about.
-/

namespace Chip8

/-- **A checked command line of the disassembler.** -/
structure DisassemblerRequest where
  input : Path
  output : Option Path := none
  /-- Whether the table of words is printed. -/
  listing : Bool := false
  verbose : Bool := false
  deriving DecidableEq

namespace DisassemblerRequest

def rules : List OptionRule :=
  [⟨.output, some 'o', "--output", true⟩, ⟨.listing, none, "--listing", false⟩,
    ⟨.verbose, some 'v', "--verbose", false⟩, ⟨.version, none, "--version", false⟩]

def ofArguments (look : String → Store.Look) (arguments : Arguments) :
    Except UsageError DisassemblerRequest := do
  arguments.checkTargets look [.output]
  let input ← arguments.input look
  let output ← arguments.target look .output
  return ⟨input, output, arguments.has .listing, arguments.has .verbose⟩

def outputPath (request : DisassemblerRequest) (settings : Settings) : Except NameError Path :=
  match request.output with
  | some path => .ok path
  | none => disassembledPath settings request.input

/-- The two lines that a verbose run starts with. -/
def heading (request : DisassemblerRequest) (settings : Settings) (size : Nat) : List Effect :=
  if request.verbose then
    [.err ("Input file: " ++ request.input.text ++ " (" ++ Numeral.ofNat size ++ " bytes)"),
      .err ("Load address: " ++ addressText settings.loadAddress)]
  else []

def listingEffects (request : DisassemblerRequest) (words : List DisassembledWord) :
    List Effect :=
  if request.listing then .out disassemblyHeading :: words.map fun d => .out d.row else []

/-- **The steps after a sweep.** -/
def finish (request : DisassemblerRequest) (settings : Settings) (output : Path)
    (words : List DisassembledWord) : Script :=
  ⟨request.listingEffects words ++
    .write output (sourceBytes (words.map (·.text))) ::
      logLines settings request.verbose [sourceWritten output] ++
    [.out ("File disassembled: " ++ output.text ++ " (" ++ Numeral.ofNat words.length ++
      " instructions)")], .success⟩

def disassembleBytes (request : DisassemblerRequest) (settings : Settings) (output : Path)
    (rom : List UInt8) : Script :=
  .after (logLines settings request.verbose [romRead request.input rom]) <|
    if rom.isEmpty then .failing (some "Disassembly") (.emptyRom request.input)
    else
      let (sweep, trail) := Decoder.standard.disassemble settings rom
      .after (request.heading settings rom.length ++ logLines settings request.verbose trail) <|
        match sweep.fault with
        | some fault => .failing (some "Disassembly") (.faulted fault)
        | none => request.finish settings output sweep.words

/-- **What the disassembler does with the content of its input.**  An input that is a file has a
    name, so its output has one; without a name the tool ends at once. -/
def script (request : DisassemblerRequest) (settings : Settings)
    (content : Except SystemError (List UInt8)) : Script :=
  match request.outputPath settings with
  | .error _ => ⟨[], .buildError⟩
  | .ok output =>
    match content with
    | .error e => .failing (some "Disassembly") (.system e)
    | .ok rom => request.disassembleBytes settings output rom

end DisassemblerRequest

end Chip8
