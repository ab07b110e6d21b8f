import Chip8.Files.Path
import Chip8.Log
import Chip8.Text.Lines
import Chip8.Text.Numeral
import Chip8.Text.Utf8

/-!
# What files hold

Assembly files and listings are UTF-8 text, ROM files are bare bytes: no header and no padding.
Reading and writing leave a trail.

* `sourceBytes` is the file of a list of lines; `Chip8.Utf8.readText` is the way back.
* The other definitions are the messages about files read and written.
-/

namespace Chip8

/-- **The file of a list of lines,** each line closed by a line feed. -/
def sourceBytes (lines : List String) : List UInt8 := Utf8.encode (Text.closeLines lines)

def sourceRead (path : Path) (text : String) : LogEntry :=
  .debug ("Read " ++ Numeral.ofNat text.length ++ " characters from " ++ path.text)

def romRead (path : Path) (bytes : List UInt8) : LogEntry :=
  .info (Numeral.ofNat bytes.length ++ " bytes loaded from " ++ path.text)

def romWritten (path : Path) (bytes : List UInt8) : LogEntry :=
  .info ("Wrote " ++ Numeral.ofNat bytes.length ++ " bytes to " ++ path.text)

def sourceWritten (path : Path) : LogEntry := .info ("Wrote " ++ path.text)

end Chip8
