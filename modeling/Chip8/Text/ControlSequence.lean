/-!
# Control sequences of terminals

A terminal takes some character sequences as orders: to change the colour, to move the cursor.
They start with an escape character and a bracket, and a message that does not go to a terminal
should do without them, since they may come from a file name or from a source line.

* `sequenceLength?` recognizes a sequence behind its escape character: parameter characters,
  then intermediate characters, then one final character that closes it.
* `dropSequences` leaves out every complete sequence of a character list, `plain` of a string.

One pass is made.  What stands on the two sides of a dropped sequence may form a sequence in its
turn, and that one stays; so does a sequence that nothing closes.
-/

namespace Chip8.Text

def escape : Char := '\x1b'

/-- The parameters of a sequence: digits, the colon, the semicolon and `<`, `=`, `>`, `?`. -/
def isParameter (c : Char) : Bool := 0x30 ≤ c.toNat && c.toNat ≤ 0x3F

/-- What may stand between the parameters and the end: the space and the signs up to the slash. -/
def isIntermediate (c : Char) : Bool := 0x20 ≤ c.toNat && c.toNat ≤ 0x2F

/-- The characters that close a sequence: the letters and the signs around them. -/
def isFinal (c : Char) : Bool := 0x40 ≤ c.toNat && c.toNat ≤ 0x7E

/-- **The number of characters of a sequence behind its escape character,** if there is one.  The
    three classes have no character in common, so each part is as long as it can be. -/
def sequenceLength? : List Char → Option Nat
  | '[' :: rest =>
    let parameters := rest.takeWhile isParameter
    let behind := rest.dropWhile isParameter
    let intermediates := behind.takeWhile isIntermediate
    match behind.dropWhile isIntermediate with
    | c :: _ => if isFinal c then some (parameters.length + intermediates.length + 2) else none
    | [] => none
  | _ => none

/-- **A character list without its sequences.**  The number says how many characters still belong
    to a sequence that was found before. -/
def dropSequences : Nat → List Char → List Char
  | _, [] => []
  | skip + 1, _ :: rest => dropSequences skip rest
  | 0, c :: rest =>
    match if c = escape then sequenceLength? rest else none with
    | some length => dropSequences length rest
    | none => c :: dropSequences 0 rest

def plain (text : String) : String := String.ofList (dropSequences 0 text.toList)

/-- Without an escape character there is nothing to leave out. -/
theorem dropSequences_eq_self {cs : List Char} (h : escape ∉ cs) : dropSequences 0 cs = cs := by
  induction cs with
  | nil => rfl
  | cons c cs ih =>
    rw [List.mem_cons, not_or] at h
    rw [dropSequences, if_neg (Ne.symm h.1), ih h.2]

/-- **A text without an escape character stays as it is.** -/
theorem plain_eq_self {text : String} (h : escape ∉ text.toList) : plain text = text := by
  rw [plain, dropSequences_eq_self h, String.ofList_toList]

end Chip8.Text
