import Chip8.Files.Path
import Chip8.Settings

/-!
# Names of output files

Where the user names no output file, its name follows from that of the input.

* `assembledPath`: an assembly file `pong.chasm` becomes the ROM `pong_a.ch8`.
* `disassembledPath`: a ROM `pong.ch8` becomes the assembly file `pong.chasm`.

The mark `_a` keeps a ROM that is assembled again apart from the ROM its source was taken from.
An input without the expected ending keeps its whole name in front of the new ending.
-/

namespace Chip8

def dropEnding (name ending : String) : String :=
  if ending.toList.isSuffixOf name.toList then
    String.ofList (name.toList.take (name.length - ending.length))
  else name

/-- A path whose name trades one ending for another. -/
def Path.tradeEnding (path : Path) (old new : String) : Except NameError Path :=
  path.withName (dropEnding path.name old ++ new)

/-- **The ROM file of an assembly file.** -/
def assembledPath (settings : Settings) (source : Path) : Except NameError Path :=
  source.tradeEnding settings.sourceSuffix settings.assembledSuffix

/-- **The assembly file of a ROM file.** -/
def disassembledPath (settings : Settings) (rom : Path) : Except NameError Path :=
  rom.tradeEnding settings.romSuffix settings.sourceSuffix

end Chip8
