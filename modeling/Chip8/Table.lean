import Chip8.Form

/-!
# The instruction table

An instruction table is a list of forms.  Its order matters to the assembler: of several forms
with one mnemonic the first whose slots take the operands wins.

* `Table.forms` are the forms of a mnemonic, `Table.find?` the first form that reads a code.
* `Table.standard` is the instruction set of the CHIP-8.

Three families are told apart by fewer digits than their patterns fix: `0___` by the low byte,
`5___` and `9___` by the first digit alone.  Their forms carry a decoding mask of their own.
-/

namespace Chip8

/-- A list of forms, the earlier ones taking precedence. -/
abbrev Table := List Form

namespace Table

/-! ## Looking up -/

def named (table : Table) (mnemonic : String) : List Form :=
  table.filter (·.mnemonic == mnemonic)

/-- **The forms of a mnemonic in any case,** in table order. -/
def forms (table : Table) (mnemonic : String) : List Form :=
  table.named (Text.uppercase mnemonic)

def isMnemonic (table : Table) (token : String) : Bool := !(table.forms token).isEmpty

def signatures (table : Table) (mnemonic : String) : Except Fault (List String) :=
  (table.forms mnemonic).mapM Form.signature

/-- The mnemonics of a table, each once, in alphabetical order. -/
def mnemonics (table : Table) : List String :=
  (table.map Form.mnemonic).eraseDups.mergeSort (· ≤ ·)

/-- **The first printed form that reads a code.** -/
def find? : Table → Int → Except Fault (Option Form)
  | [], _ => .ok none
  | form :: rest, code => do
    if form.canonical then
      if ← form.matchesCode code then return some form
    find? rest code

/-! ## The standard table -/

-- Most slots of the table are one of these five.
def vx : Slot := .register .x
def vy : Slot := .register .y
def byte : Slot := .immediate .kk
def addr : Slot := .immediate .nnn
def nibble : Slot := .immediate .n

/-- **The instructions of the CHIP-8.** -/
def standard : Table :=
  [
    -- System and flow control
    ⟨"CLS", [], "00E0", "Clear the display", true, some 0xF0FF⟩,
    ⟨"RET", [], "00EE", "Return from subroutine", true, some 0xF0FF⟩,
    ⟨"JP", [addr], "1nnn", "Jump to nnn", true, none⟩,
    ⟨"JP", [.fixedRegister "V0", addr], "Bnnn", "Jump to nnn + V0", true, none⟩,
    ⟨"CALL", [addr], "2nnn", "Call subroutine at nnn", true, none⟩,
    -- Conditional skips
    ⟨"SE", [vx, vy], "5xy0", "Skip next if Vx == Vy", true, some 0xF000⟩,
    ⟨"SE", [vx, byte], "3xkk", "Skip next if Vx == kk", true, none⟩,
    ⟨"SNE", [vx, vy], "9xy0", "Skip next if Vx != Vy", true, some 0xF000⟩,
    ⟨"SNE", [vx, byte], "4xkk", "Skip next if Vx != kk", true, none⟩,
    ⟨"SKP", [vx], "Ex9E", "Skip next if key Vx is pressed", true, none⟩,
    ⟨"SKNP", [vx], "ExA1", "Skip next if key Vx is not pressed", true, none⟩,
    -- Loads
    ⟨"LD", [.keyword "I", vx], "Fx55", "Store V0..Vx at I", true, none⟩,
    ⟨"LD", [.keyword "I", addr], "Annn", "Set I = nnn", true, none⟩,
    ⟨"LD", [.keyword "DT", vx], "Fx15", "Set delay timer = Vx", true, none⟩,
    ⟨"LD", [.keyword "ST", vx], "Fx18", "Set sound timer = Vx", true, none⟩,
    ⟨"LD", [.keyword "F", vx], "Fx29", "Set I = sprite for digit Vx", true, none⟩,
    ⟨"LD", [.keyword "B", vx], "Fx33", "Store BCD of Vx at I, I+1, I+2", true, none⟩,
    ⟨"LD", [vx, .keyword "DT"], "Fx07", "Set Vx = delay timer", true, none⟩,
    ⟨"LD", [vx, .keyword "K"], "Fx0A", "Wait for key, store in Vx", true, none⟩,
    ⟨"LD", [vx, .keyword "I"], "Fx65", "Read V0..Vx from I", true, none⟩,
    ⟨"LD", [vx, vy], "8xy0", "Set Vx = Vy", true, none⟩,
    ⟨"LD", [vx, byte], "6xkk", "Set Vx = kk", true, none⟩,
    -- Arithmetic and logic
    ⟨"ADD", [.keyword "I", vx], "Fx1E", "Set I = I + Vx", true, none⟩,
    ⟨"ADD", [vx, vy], "8xy4", "Set Vx = Vx + Vy, VF = carry", true, none⟩,
    ⟨"ADD", [vx, byte], "7xkk", "Set Vx = Vx + kk", true, none⟩,
    ⟨"OR", [vx, vy], "8xy1", "Set Vx = Vx OR Vy", true, none⟩,
    ⟨"AND", [vx, vy], "8xy2", "Set Vx = Vx AND Vy", true, none⟩,
    ⟨"XOR", [vx, vy], "8xy3", "Set Vx = Vx XOR Vy", true, none⟩,
    ⟨"SUB", [vx, vy], "8xy5", "Set Vx = Vx - Vy, VF = NOT borrow", true, none⟩,
    ⟨"SHR", [vx, vy], "8xy6", "Set Vx = Vx SHR 1", true, none⟩,
    ⟨"SHR", [vx], "8x06", "Set Vx = Vx SHR 1", false, none⟩,
    ⟨"SUBN", [vx, vy], "8xy7", "Set Vx = Vy - Vx, VF = NOT borrow", true, none⟩,
    ⟨"SHL", [vx, vy], "8xyE", "Set Vx = Vx SHL 1", true, none⟩,
    ⟨"SHL", [vx], "8x0E", "Set Vx = Vx SHL 1", false, none⟩,
    ⟨"RND", [vx, byte], "Cxkk", "Set Vx = random byte AND kk", true, none⟩,
    -- Display
    ⟨"DRW", [vx, vy, nibble], "Dxyn", "Draw n-byte sprite at (Vx, Vy)", true, none⟩
  ]

end Table

end Chip8
