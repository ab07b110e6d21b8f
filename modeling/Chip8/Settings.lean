import Chip8.Log
import Chip8.Text.Integer
import Chip8.Text.Uppercase

/-!
# Settings

What a run depends on besides its input: where programs are loaded, how much memory there is,
how files are named and how much is logged.

* `Settings` holds them, with the defaults of the CHIP-8: programs start at `0x200`, behind the
  space that once held the interpreter, in an address space of four kibibytes.
* `Settings.ofEnvironment` reads the two that the environment may set; a value that makes no
  sense is passed over.
* `Settings.threshold` is the log level in numbers.
-/

namespace Chip8

/-- **The settings of a run.** -/
structure Settings where
  loadAddress : Int := 0x200
  memorySize : Int := 0x1000
  sourceSuffix : String := ".chasm"
  romSuffix : String := ".ch8"
  /-- The ending of ROM files that the assembler writes. -/
  assembledSuffix : String := "_a.ch8"
  logLevel : String := "WARNING"
  deriving DecidableEq, Repr

namespace Settings

/-- The level in numbers; an unknown name is the level of warnings. -/
def threshold (settings : Settings) : Nat :=
  (levelOf? (Text.uppercase settings.logLevel)).getD Severity.warning.level

/-- The load address that a variable sets, if it holds an integer literal. -/
def withLoadAddress (settings : Settings) (value : Option String) : Settings :=
  match value.bind Integer.parse? with
  | some address => { settings with loadAddress := address }
  | none => settings

/-- The log level that a variable sets, if it holds a known name in any case. -/
def withLogLevel (settings : Settings) (value : Option String) : Settings :=
  match value.map Text.uppercase with
  | some name => if (levelOf? name).isSome then { settings with logLevel := name } else settings
  | none => settings

/-- **The settings of an environment,** given by the values of its variables. -/
def ofEnvironment (env : String → Option String) : Settings :=
  ({} : Settings).withLoadAddress (env "CHASM_LOAD_ADDRESS")
    |>.withLogLevel (env "CHASM_LOG_LEVEL")

end Settings

end Chip8
