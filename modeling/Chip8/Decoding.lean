import Chip8.Table

/-!
# Decoding a word

Every word has an assembly text.  A word that some printed form reads is written as that
instruction; any other word is written as its four hexadecimal digits, which the assembler takes
as they are.

* `Decoder` is a table turned around: the printed forms by leading nibble, in each family the
  forms that look at more bits first.
* `Decoder.ofTable` builds it, `Decoder.lookup` finds the form of a code, `Decoder.decode` the
  text.

Forms that look at equally many bits keep their order in the table, because each form is put in
front of the forms behind it that do not look at more bits than it does.
-/

namespace Chip8

/-- **A printed form with its two bit patterns worked out.** -/
structure DecodingRule where
  /-- The bits that are looked at. -/
  mask : Int
  /-- What they have to be. -/
  value : Nat
  form : Form

namespace DecodingRule

def weight (rule : DecodingRule) : Nat := Bits.ones rule.mask.natAbs

def family (rule : DecodingRule) : Nat := rule.value / 4096

def reads (rule : DecodingRule) (code : Int) : Bool := Bits.and code rule.mask == rule.value

/-- The rules of the printed forms of a table, in table order. -/
def ofTable : Table → Except Fault (List DecodingRule)
  | [] => .ok []
  | form :: rest =>
    if form.canonical then do
      let value ← form.value
      let mask ← form.matchMask
      return ⟨mask, value, form⟩ :: (← ofTable rest)
    else ofTable rest

/-- A rule takes its place in front of the rules that look at no more bits. -/
def insert (rule : DecodingRule) : List DecodingRule → List DecodingRule
  | [] => [rule]
  | first :: rest =>
    if first.weight ≤ rule.weight then rule :: first :: rest else first :: insert rule rest

/-- Rules in falling order of weight, rules of equal weight in the order in which they came. -/
def rank (rules : List DecodingRule) : List DecodingRule := rules.foldr insert []

end DecodingRule

/-- **A table turned around:** for each of the sixteen leading nibbles the rules of its family,
    the weightiest first. -/
structure Decoder where
  /-- The families, from `0` to `F`. -/
  families : List (List DecodingRule)

namespace Decoder

def ofRules (rules : List DecodingRule) : Decoder :=
  ⟨(List.range 16).map fun nibble => DecodingRule.rank (rules.filter (·.family == nibble))⟩

def ofTable (table : Table) : Except Fault Decoder := (DecodingRule.ofTable table).map ofRules

/-- The rules that may read a code: those of the family its bits above the lowest twelve name. -/
def candidates (decoder : Decoder) (code : Int) : List DecodingRule :=
  if code < 0 then [] else (decoder.families[(code / 4096).toNat]?).getD []

/-- **The form that reads a code,** if one does. -/
def lookup (decoder : Decoder) (code : Int) : Option Form :=
  ((decoder.candidates code).find? (·.reads code)).map DecodingRule.form

/-- **The text of a word,** and the form it was read as. -/
def decodeWord (decoder : Decoder) (word : Word) : Except Fault (String × Option Form) :=
  match decoder.lookup word.value with
  | some form => (form.render word.value).map (·, some form)
  | none => .ok (word.hex, none)

def decode (decoder : Decoder) (code : Int) : Except Fault (String × Option Form) := do
  decoder.decodeWord (← Word.ofInt code)

def standard : Decoder :=
  match ofTable Table.standard with
  | .ok decoder => decoder
  | .error _ => ofRules []

end Decoder

end Chip8
