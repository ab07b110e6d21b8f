import Chip8.Files.Path
import Chip8.Text.Numeral

/-!
# Errors of the file system

Reading and writing files can fail for reasons that lie in the files.  Such an error has a
number, a wording and the path it is about, and the tools tell two kinds apart from the rest:
what is missing and what must not be touched.  A path with a null character is refused before the
file system has been asked, so that error has neither a number nor a path.

* `SystemError.Kind` are the kinds, `SystemError.Kind.ofCode` the kind of an error number.
* `SystemError.about` is the error of a kind about a path, `SystemError.message` its text.
-/

namespace Chip8

inductive SystemError.Kind
  | missing
  | denied
  | notDirectory
  | isDirectory
  | nameTooLong
  | nullCharacter
  | other
  deriving DecidableEq, Repr

/-- **An error of the file system.** -/
structure SystemError where
  kind : SystemError.Kind
  code : Option Int
  reason : String
  path : Option String
  deriving DecidableEq, Repr

namespace SystemError

def Kind.ofCode (code : Int) : Kind :=
  if code = 2 then missing
  else if code = 1 ∨ code = 13 then denied
  else if code = 20 then notDirectory
  else if code = 21 then isDirectory
  else if code = 36 then nameTooLong
  else other

/-- The number and the wording of the errors that this library raises itself. -/
def Kind.standard : Kind → Option Int × String
  | missing => (some 2, "No such file or directory")
  | denied => (some 13, "Permission denied")
  | notDirectory => (some 20, "Not a directory")
  | isDirectory => (some 21, "Is a directory")
  | nameTooLong => (some 36, "File name too long")
  | nullCharacter => (none, "embedded null byte")
  | other => (none, "Input/output error")

def about (kind : Kind) (path : Path) : SystemError :=
  ⟨kind, kind.standard.1, kind.standard.2, some path.text⟩

/-- **The text of an error:** number, wording and quoted path, as far as they are known. -/
def message (e : SystemError) : String :=
  match e.code with
  | none => e.reason
  | some code =>
    "[Errno " ++ Numeral.ofInt code ++ "] " ++ e.reason ++
      (match e.path with
        | some path => ": " ++ Text.quoted path
        | none => "")

end SystemError

end Chip8
