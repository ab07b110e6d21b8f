import Chip8.Text.Quoted

/-!
# Paths

A path is read from a text once and kept in its normal form: repeated slashes, single dots and a
slash at the end vanish, and `..` stays, because what is above a name is for the files to say.
Only a name that is put in later may still carry dots and slashes.

* `Path.parse` reads a path, `Path.text` writes it.
* `Path.name` is its last component, `Path.withName` puts another in its place.

A path that starts with exactly two slashes is kept apart from the other absolute ones.  The
path without components, relative to the current directory, is written as a dot.
-/

namespace Chip8

inductive Anchor
  | current
  | root
  /-- At the root, written with two slashes. -/
  | doubleRoot
  deriving DecidableEq, Repr

def Anchor.text : Anchor → String
  | current => "" | root => "/" | doubleRoot => "//"

/-- **A path in normal form.** -/
structure Path where
  anchor : Anchor
  /-- Its components; none of them is empty or a dot. -/
  parts : List String
  deriving DecidableEq, Repr

inductive NameError
  /-- The path has no components. -/
  | emptyName (path : Path)
  /-- The new name does not name one thing. -/
  | invalidName (name : String)
  deriving DecidableEq

namespace Path

/-! ## Reading and writing -/

def anchorOf : List Char → Anchor
  | '/' :: '/' :: '/' :: _ => .root
  | '/' :: '/' :: _ => .doubleRoot
  | '/' :: _ => .root
  | _ => .current

def pieces (cs : List Char) : List String := (cs.splitOnP (· == '/')).map String.ofList

/-- A piece that is a component: neither empty nor a dot. -/
def isPart (piece : String) : Bool := piece != "" && piece != "."

/-- **The path of a text.** -/
def parse (text : String) : Path :=
  ⟨anchorOf text.toList, (pieces text.toList).filter isPart⟩

def text (path : Path) : String :=
  if path.anchor = .current ∧ path.parts = [] then "."
  else path.anchor.text ++ "/".intercalate path.parts

/-! ## Names -/

def name (path : Path) : String := path.parts.getLastD ""

/-- Whether a text can be the last component of a path: read as a path it has one component, and
    there is no slash at its ends. -/
def isName (name : String) : Bool :=
  name.toList.head? != some '/' && name.toList.getLast? != some '/' &&
    ((pieces name.toList).filter isPart).length == 1

/-- **A path with another last component,** which is kept as it is written. -/
def withName (path : Path) (name : String) : Except NameError Path :=
  if path.parts = [] then .error (.emptyName path)
  else if isName name then .ok { path with parts := path.parts.dropLast ++ [name] }
  else .error (.invalidName name)

end Path

def NameError.message : NameError → String
  | emptyName path => "PosixPath(" ++ Text.quoted path.text ++ ") has an empty name"
  | invalidName name => "Invalid name " ++ Text.quoted name

end Chip8
