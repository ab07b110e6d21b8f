/-!
# UTF-8

Source files are UTF-8.  Decoding reads the bytes one after the other and keeps, between two of
them, what an unfinished sequence still allows; a byte outside of that ends the decoding with a
fault that says where the unfinished sequence began, how long it was and what is wrong.

* `Pending` is an unfinished sequence; `opening` says what a byte can begin.
* `decode` turns bytes into characters or a `Fault`; `Fault.message` is the wording.
* `encode` is the other direction.
* `normalizeBreaks` is the reading of line ends in a source file: a carriage return, alone or
  before a line feed, is a line feed.

The bounds of the second byte keep out overlong forms, surrogates and code points past the
last, so no check is left for the end of a sequence.
-/

namespace Chip8.Utf8

/-! ## Faults -/

inductive Reason
  | invalidStart
  | invalidContinuation
  | unexpectedEnd
  deriving DecidableEq

def Reason.text : Reason → String
  | .invalidStart => "invalid start byte"
  | .invalidContinuation => "invalid continuation byte"
  | .unexpectedEnd => "unexpected end of data"

/-- **Where decoding stopped and why.** -/
structure Fault where
  start : Nat
  first : UInt8
  /-- How many bytes of the sequence were in order, at least one. -/
  length : Nat
  reason : Reason
  deriving DecidableEq

/-- A bad sequence of one byte is named by the byte, a longer one by its two ends. -/
def Fault.message (fault : Fault) : String :=
  let place :=
    if fault.length ≤ 1 then
      "byte 0x" ++ byteText fault.first.toNat ++ " in position " ++ toString fault.start
    else
      "bytes in position " ++ toString fault.start ++ "-" ++
        toString (fault.start + fault.length - 1)
  "'utf-8' codec can't decode " ++ place ++ ": " ++ fault.reason.text
where
  /-- The two small hexadecimal digits of a byte. -/
  byteText (n : Nat) : String := String.ofList [Nat.digitChar (n / 16), Nat.digitChar (n % 16)]

/-! ## Decoding -/

/-- **An unfinished sequence:** its bytes so far and what the next byte may be. -/
structure Pending where
  start : Nat
  first : UInt8
  length : Nat
  /-- How many bytes are still missing. -/
  missing : Nat
  /-- The least value the next byte may have. -/
  low : Nat
  /-- The greatest value the next byte may have. -/
  high : Nat
  bits : Nat

def Pending.fault (p : Pending) (reason : Reason) : Fault :=
  ⟨p.start, p.first, p.length, reason⟩

inductive Opening
  | whole (c : Char)
  /-- A sequence with this many bytes to come, the next one between two bounds, and these bits
      of the character. -/
  | sequence (missing low high bits : Nat)
  | nothing

/-- **What a byte can begin.**  The second byte of a sequence is bounded more narrowly after
    `E0`, `ED`, `F0` and `F4`. -/
def opening (byte : UInt8) : Opening :=
  let b := byte.toNat
  if b < 0x80 then .whole (Char.ofNat b)
  else if b < 0xC2 then .nothing
  else if b < 0xE0 then .sequence 1 0x80 0xBF (b - 0xC0)
  else if b = 0xE0 then .sequence 2 0xA0 0xBF 0
  else if b = 0xED then .sequence 2 0x80 0x9F 0xD
  else if b < 0xF0 then .sequence 2 0x80 0xBF (b - 0xE0)
  else if b = 0xF0 then .sequence 3 0x90 0xBF 0
  else if b < 0xF4 then .sequence 3 0x80 0xBF (b - 0xF0)
  else if b = 0xF4 then .sequence 3 0x80 0x8F 4
  else .nothing

/-- Decoding from a position on, with the sequence that is open there, if one is. -/
def decodeFrom (position : Nat) : Option Pending → List UInt8 → Except Fault (List Char)
  | none, [] => .ok []
  | some p, [] => .error (p.fault .unexpectedEnd)
  | none, byte :: rest =>
    match opening byte with
    | .whole c => (decodeFrom (position + 1) none rest).map (c :: ·)
    | .sequence missing low high bits =>
      decodeFrom (position + 1) (some ⟨position, byte, 1, missing, low, high, bits⟩) rest
    | .nothing => .error ⟨position, byte, 1, .invalidStart⟩
  | some p, byte :: rest =>
    if p.low ≤ byte.toNat ∧ byte.toNat ≤ p.high then
      let bits := 64 * p.bits + (byte.toNat - 0x80)
      if p.missing = 1 then (decodeFrom (position + 1) none rest).map (Char.ofNat bits :: ·)
      else
        decodeFrom (position + 1)
          (some ⟨p.start, p.first, p.length + 1, p.missing - 1, 0x80, 0xBF, bits⟩) rest
    else .error (p.fault .invalidContinuation)

/-- **The characters of a byte list,** or the first fault in it. -/
def decode (bytes : List UInt8) : Except Fault (List Char) := decodeFrom 0 none bytes

/-! ## Encoding -/

/-- The bytes of one character, one to four. -/
def encodeChar (c : Char) : List UInt8 :=
  let n := c.toNat
  if n < 0x80 then [UInt8.ofNat n]
  else if n < 0x800 then [UInt8.ofNat (0xC0 + n / 64), tail n]
  else if n < 0x10000 then [UInt8.ofNat (0xE0 + n / 4096), tail (n / 64), tail n]
  else [UInt8.ofNat (0xF0 + n / 262144), tail (n / 4096), tail (n / 64), tail n]
where
  /-- A continuation byte, from the six lowest bits. -/
  tail (n : Nat) : UInt8 := UInt8.ofNat (0x80 + n % 64)

/-- **The bytes of a text.** -/
def encode (text : String) : List UInt8 := text.toList.flatMap encodeChar

/-! ## Line ends of a source file -/

/-- A carriage return, with the line feed after it if there is one, becomes a line feed. -/
def normalizeBreaks : List Char → List Char
  | [] => []
  | '\r' :: '\n' :: rest => '\n' :: normalizeBreaks rest
  | '\r' :: rest => '\n' :: normalizeBreaks rest
  | c :: rest => c :: normalizeBreaks rest

def readText (bytes : List UInt8) : Except Fault String :=
  (decode bytes).map fun cs => String.ofList (normalizeBreaks cs)

end Chip8.Utf8
