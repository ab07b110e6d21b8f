import Chip8.Decoding
import Chip8.Encoding
import Chip8.Settings

/-!
# Disassembling a ROM

A ROM is a byte image that is mapped at the load address.  The disassembler makes one sweep over
it, address by address, and reads a word at every even address that has a following byte in the
image; code and sprite data look alike, so what is data comes out as whatever instructions it
happens to spell.

* `DisassembledWord` is a word with its address and its text, `Sweep` what became of an image:
  the words in order and, if the sweep was broken off, the fault that did it.
* `Decoder.wordAt` reads the word at one offset, `Decoder.walk` the words at some addresses and
  `Decoder.sweep` those of an image.
* `disassemblyText`, `disassemblyListing` and `disassemblyLog` are what a sweep is shown as;
  `Decoder.disassemble` is a sweep together with its trail.

A sweep puts the address of every word into its trail, in decimal, and an address that is too
long to be printed breaks it off.  With an odd load address the first byte of the image is
passed over, and a byte left alone at the end is passed over always.
-/

namespace Chip8

/-- **A word of an image and what it reads as.** -/
structure DisassembledWord where
  address : Int
  word : Word
  text : String
  /-- The form it was read as, if it is an instruction. -/
  form : Option Form
  deriving DecidableEq

namespace DisassembledWord

def known (d : DisassembledWord) : Bool := d.form.isSome

/-- The mnemonic of an instruction, the digits of any other word. -/
def mnemonic (d : DisassembledWord) : String :=
  match d.form with
  | some form => form.mnemonic
  | none => d.word.hex

/-- A row of the listing: the address in decimal, the word in small digits, the text. -/
def row (d : DisassembledWord) : String :=
  "[" ++ Numeral.ofInt d.address ++ "]    " ++ d.word.smallHex ++ "    " ++ d.text

/-- The word itself, if its address can be printed. -/
def checked (d : DisassembledWord) : Except Fault DisassembledWord :=
  if Numeral.isPrintable d.address then .ok d else .error .overlongValue

def trace (d : DisassembledWord) : LogEntry :=
  .debug ("[" ++ Numeral.ofInt d.address ++ "] " ++ d.word.hex ++ " " ++ d.text)

end DisassembledWord

/-- **What became of an image.** -/
structure Sweep where
  words : List DisassembledWord := []
  /-- What broke the sweep off, if anything did. -/
  fault : Option Fault := none

def Sweep.cons (word : DisassembledWord) (sweep : Sweep) : Sweep :=
  { sweep with words := word :: sweep.words }

namespace Decoder

/-! ## Reading words of an image -/

def readWord (decoder : Decoder) (address : Int) (word : Word) :
    Except Fault DisassembledWord := do
  let (text, form) ← decoder.decodeWord word
  return ⟨address, word, text, form⟩

/-- **The word at an offset into an image,** which has to hold both of its bytes. -/
def wordAt (decoder : Decoder) (loadAddress : Int) (rom : List UInt8) (offset : Int) :
    Except Fault DisassembledWord :=
  match if 0 ≤ offset then rom.drop offset.toNat else [] with
  | high :: low :: _ => decoder.readWord (loadAddress + offset) (Word.ofBytes high low)
  | _ => .error (.offsetRange offset rom.length)

/-! ## Sweeps -/

/-- So many addresses, one behind the other. -/
def addresses (start : Int) (count : Nat) : List Int :=
  (List.range count).map fun i : Nat => start + i

/-- **The walk over addresses of an image.**  A word is read at an even address unless it is the
    last address of the image; all other addresses are passed over. -/
def walk (decoder : Decoder) (loadAddress : Int) (rom : List UInt8) : List Int → Sweep
  | [] => {}
  | address :: later =>
    if address % 2 = 0 ∧ address + 1 < loadAddress + rom.length then
      match decoder.wordAt loadAddress rom (address - loadAddress) >>= DisassembledWord.checked with
      | .ok word => (decoder.walk loadAddress rom later).cons word
      | .error fault => { fault := some fault }
    else decoder.walk loadAddress rom later

/-- **The sweep over an image:** the walk over all its addresses. -/
def sweep (decoder : Decoder) (loadAddress : Int) (rom : List UInt8) : Sweep :=
  decoder.walk loadAddress rom (addresses loadAddress rom.length)

end Decoder

/-! ## Showing a sweep -/

/-- The assembly source of a sweep, one instruction on each line. -/
def disassemblyText (words : List DisassembledWord) : String :=
  "\n".intercalate (words.map (·.text))

def disassemblyHeading : String := "Address  Opcode  Instruction"

/-- The sweep as a table of addresses, words and instructions. -/
def disassemblyListing (words : List DisassembledWord) : String :=
  "\n".intercalate (disassemblyHeading :: words.map (·.row))

/-- The warning about an image that does not fit into memory. -/
def oversizeWarning (settings : Settings) (size : Nat) : List LogEntry :=
  if settings.loadAddress + size > settings.memorySize then
    [.warning ("ROM of " ++ Numeral.ofNat size ++ " bytes extends past " ++
      addressText settings.memorySize)]
  else []

def sweepTotals (words : List DisassembledWord) : LogEntry :=
  .debug (Numeral.ofNat words.length ++ " opcodes decoded, " ++
    Numeral.ofNat (words.countP (!·.known)) ++ " unknown")

/-- **The trail of a sweep:** a warning if the image is too large, each word and, unless the sweep
    was broken off, the totals. -/
def disassemblyLog (settings : Settings) (size : Nat) (sweep : Sweep) : List LogEntry :=
  oversizeWarning settings size ++ sweep.words.map (·.trace) ++
    (match sweep.fault with
      | some _ => []
      | none => [sweepTotals sweep.words])

/-- **The disassembly of an image:** the sweep over it, and its trail. -/
def Decoder.disassemble (decoder : Decoder) (settings : Settings) (rom : List UInt8) :
    Sweep × List LogEntry :=
  let sweep := decoder.sweep settings.loadAddress rom
  (sweep, disassemblyLog settings rom.length sweep)

end Chip8
