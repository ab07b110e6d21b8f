import Chip8.Fault

/-!
# Opcode patterns

An instruction form is tied to its words by a pattern such as `8xy4`: one character for each
nibble, the highest first.  A capital hexadecimal digit is fixed; a run of one other character
is a field, four bits for each character.

* `Pattern.runs` cuts a pattern into runs of one character.
* `Pattern.layout` gives each field its place in the word (a `Span`), counted from the right end.
* `Pattern.mask` and `Pattern.value` are the fixed bits, counted from the left end.

Tables may bring patterns of any length.  The two ways of counting agree on four characters,
the length of every pattern of the standard table; in other lengths they diverge, and a digit
fixed beyond the fourth place has no bits at all, which is the fault `negativeShift`.
-/

namespace Chip8

/-- **The place of a field in a word:** its lowest bit and its number of bits. -/
structure Span where
  shift : Nat
  width : Nat
  deriving DecidableEq, Repr

/-- The fields of a pattern and their places, from left to right. -/
abbrev Layout := List (Field × Span)

/-- A field gets a place.  A field that has one already keeps its turn and moves. -/
def Layout.put : Layout → Field → Span → Layout
  | [], field, span => [(field, span)]
  | (other, old) :: rest, field, span =>
    if other = field then (field, span) :: rest else (other, old) :: Layout.put rest field span

namespace Pattern

/-! ## Fields -/

/-- The value of a fixed digit.  Small letters are fields, even those from `a` to `f`. -/
def fixedDigit? (c : Char) : Option Nat :=
  let code := c.toNat
  if 48 ≤ code ∧ code ≤ 57 then some (code - 48)
  else if 65 ≤ code ∧ code ≤ 70 then some (code - 55)
  else none

def isFixed (c : Char) : Bool := (fixedDigit? c).isSome

/-- **The maximal runs of one character,** each with its length. -/
def runs : List Char → List (Char × Nat)
  | [] => []
  | c :: rest =>
    match runs rest with
    | [] => [(c, 1)]
    | (d, length) :: more =>
      if c = d then (c, length + 1) :: more else (c, 1) :: (d, length) :: more

def runsLength : List (Char × Nat) → Nat
  | [] => 0
  | (_, length) :: rest => length + runsLength rest

/-- The field of a run: `x`, `y` and `k` speak for themselves, any other character is an address
    when it stands three times and a single nibble's literal otherwise. -/
def fieldOf (c : Char) (length : Nat) : Field :=
  if c = 'x' then .x
  else if c = 'y' then .y
  else if c = 'k' then .kk
  else if length = 3 then .nnn
  else .n

/-- The runs from some point on add their fields to a layout. -/
def layoutRuns : Layout → List (Char × Nat) → Layout
  | layout, [] => layout
  | layout, (c, length) :: rest =>
    if isFixed c then layoutRuns layout rest
    else layoutRuns (layout.put (fieldOf c length) ⟨4 * runsLength rest, 4 * length⟩) rest

/-- **The fields of a pattern.**  Of two runs with one name the last one counts. -/
def layout (pattern : String) : Layout := layoutRuns [] (runs pattern.toList)

/-! ## Fixed bits -/

/-- The weights of the four nibbles of a word, from the left. -/
def nibbleWeights : List Nat := [4096, 256, 16, 1]

/-- The bits of the fixed digits, each nibble at its weight. -/
def maskFrom : List Nat → List Char → Nat
  | weight :: weights, c :: rest =>
    (if isFixed c then 15 * weight else 0) + maskFrom weights rest
  | _, _ => 0

/-- The fixed digits themselves, each at its weight. -/
def valueFrom : List Nat → List Char → Nat
  | weight :: weights, c :: rest => (fixedDigit? c).getD 0 * weight + valueFrom weights rest
  | _, _ => 0

/-- Whether every fixed digit stands in one of the first four places. -/
def hasDefinedBits (pattern : String) : Bool := !(pattern.toList.drop 4).any isFixed

/-- **The bits that a pattern fixes.** -/
def mask (pattern : String) : Except Fault Nat :=
  if hasDefinedBits pattern then .ok (maskFrom nibbleWeights pattern.toList)
  else .error .negativeShift

/-- **The word that a pattern fixes,** with all fields zero. -/
def value (pattern : String) : Except Fault Nat :=
  if hasDefinedBits pattern then .ok (valueFrom nibbleWeights pattern.toList)
  else .error .negativeShift

end Pattern

end Chip8
