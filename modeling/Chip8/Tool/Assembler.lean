import Chip8.Files.Naming
import Chip8.Session
import Chip8.Tool.Arguments
import Chip8.Tool.Script

/-!
# The assembler tool

`c8asm` assembles one file.  Lines that cannot be encoded are reported and left out, unless the
run is strict: then they are reported and nothing is written.

* `AssemblerRequest` is a command line that has been checked.
* `AssemblerRequest.script` is what the tool does once the input has been read.

The ROM is written before the listing, so a listing that cannot be written leaves the ROM.
-/

namespace Chip8

/-- **A checked command line of the assembler.** -/
structure AssemblerRequest where
  input : Path
  output : Option Path := none
  listing : Option Path := none
  strict : Bool := false
  verbose : Bool := false
  deriving DecidableEq

namespace AssemblerRequest

def rules : List OptionRule :=
  [⟨.output, some 'o', "--output", true⟩, ⟨.listing, some 'l', "--listing", true⟩,
    ⟨.strict, none, "--strict", false⟩, ⟨.verbose, some 'v', "--verbose", false⟩,
    ⟨.version, none, "--version", false⟩]

def ofArguments (look : String → Store.Look) (arguments : Arguments) :
    Except UsageError AssemblerRequest := do
  arguments.checkTargets look [.output, .listing]
  let input ← arguments.input look
  let output ← arguments.target look .output
  let listing ← arguments.target look .listing
  return ⟨input, output, listing, arguments.has .strict, arguments.has .verbose⟩

def outputPath (request : AssemblerRequest) (settings : Settings) : Except NameError Path :=
  match request.output with
  | some path => .ok path
  | none => assembledPath settings request.input

def listingEffects (request : AssemblerRequest) (settings : Settings) (run : Run) :
    List Effect :=
  match request.listing with
  | none => []
  | some path =>
    .write path run.listingBytes :: logLines settings request.verbose [sourceWritten path] ++
      (if request.verbose then [.out ("Wrote listing to " ++ path.text)] else [])

/-- **The steps after a run that was not broken off.** -/
def finish (request : AssemblerRequest) (settings : Settings) (output : Path) (run : Run) :
    Script :=
  let reported : List Effect := if run.hasErrors then [.err run.report] else []
  if request.strict && run.hasErrors then ⟨reported, .buildError⟩
  else
    ⟨reported ++
      .write output run.code :: logLines settings request.verbose [romWritten output run.code] ++
      request.listingEffects settings run ++
      [.out ("File assembled: " ++ output.text ++ " (" ++
        Numeral.ofNat run.instructions.length ++ " instructions, " ++
        Numeral.ofNat run.code.length ++ " bytes)")], .success⟩

def assembleText (request : AssemblerRequest) (settings : Settings) (output : Path)
    (source : String) : Script :=
  let run := assemble Table.standard settings.loadAddress source
  let trail := sourceRead request.input source :: run.log request.input.text
  .after (logLines settings request.verbose trail) <|
    match run.fault with
    | some fault => .failing (some "Assembly") (.faulted fault)
    | none => request.finish settings output run

/-- **What the assembler does with the content of its input.**  An input that is a file has a
    name, so its output has one; without a name the tool ends at once. -/
def script (request : AssemblerRequest) (settings : Settings)
    (content : Except SystemError (List UInt8)) : Script :=
  match request.outputPath settings with
  | .error _ => ⟨[], .buildError⟩
  | .ok output =>
    .after (if request.verbose then [.out ("Assembling " ++ request.input.text ++ "...")] else [])
      <| match sourceText content with
        | .error failure => .failing (some "Assembly") failure
        | .ok source => request.assembleText settings output source

end AssemblerRequest

end Chip8
