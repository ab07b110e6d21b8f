import Chip8.Failure
import Chip8.Files.Store

/-!
# Command-line arguments

Both tools take one input file and a few options.  An option has a long name, and most have a
letter too; some take a value, the others are flags.

* `OptionRule` describes an option, `Arguments.parse` reads a list of arguments by such rules.
* `Arguments` is what was given: options in order and what remains.
* `UsageError` lists what can be wrong with arguments.

Options and the input file come in any order.  A value follows its option as the next argument,
or right behind the letter, or behind the long name and an equals sign.  Letters of flags can be
joined, with one valued option as the last of them.  Behind `--` there are no more options, and
of an option given twice the last one counts.
-/

namespace Chip8

/-! ## Rules and errors -/

inductive OptionKey
  | output | listing | strict | verbose | version
  deriving DecidableEq, Repr

/-- **How an option is written.** -/
structure OptionRule where
  key : OptionKey
  /-- Its letter, if it has one. -/
  letter : Option Char
  /-- Its long name, with the two dashes. -/
  long : String
  valued : Bool

/-- **What is wrong with arguments.** -/
inductive UsageError
  | unknownOption (text : String)
  | missingValue (key : OptionKey)
  | unwantedValue (key : OptionKey)
  | missingInput
  | extraInput (text : String)
  | absentInput (text : String)
  /-- A directory where a file is needed. -/
  | directory (text : String)
  /-- A file name with a null character, which nobody should have been able to give. -/
  | nullCharacter (text : String)
  deriving DecidableEq

def UsageError.message : UsageError → String
  | unknownOption text => "No such option: " ++ text
  | missingValue _ => "Option requires an argument."
  | unwantedValue _ => "Option does not take a value."
  | missingInput => "Missing argument 'INPUT_FILE'."
  | extraInput text => "Got unexpected extra argument (" ++ text ++ ")"
  | absentInput text => "File '" ++ text ++ "' does not exist."
  | directory text => "File '" ++ text ++ "' is a directory."
  | nullCharacter _ => "stat: embedded null character in path"

def UsageError.status : UsageError → ExitStatus
  | nullCharacter _ => .buildError
  | _ => .invalidArguments

/-- **What was given on a command line.** -/
structure Arguments where
  /-- The options in order, each with its value; a flag has the empty one. -/
  options : List (OptionKey × String) := []
  inputs : List String := []
  deriving DecidableEq

/-! ## Reading -/

/-- What one argument gives: options, and possibly one more that still wants its value. -/
inductive Reading
  /-- All options have what they need. -/
  | complete (given : List (OptionKey × String))
  /-- The last option takes the next argument as its value. -/
  | wanting (given : List (OptionKey × String)) (key : OptionKey)

namespace Reading

def flag (key : OptionKey) : Reading → Reading
  | complete given => complete ((key, "") :: given)
  | wanting given last => wanting ((key, "") :: given) last

end Reading

namespace Arguments

def readLetters (rules : List OptionRule) : List Char → Except UsageError Reading
  | [] => .ok (.complete [])
  | c :: rest =>
    match rules.find? (·.letter == some c) with
    | none => .error (.unknownOption (String.ofList ['-', c]))
    | some rule =>
      if rule.valued then
        .ok (if rest.isEmpty then .wanting [] rule.key
          else .complete [(rule.key, String.ofList rest)])
      else (readLetters rules rest).map (·.flag rule.key)

def attachedValue (cs : List Char) : Option String :=
  match cs.dropWhile (· != '=') with
  | [] => none
  | _ :: value => some (String.ofList value)

/-- A long option with the value attached to it, if one is. -/
def readLong (rule : OptionRule) : Option String → Except UsageError Reading
  | some value =>
    if rule.valued then .ok (.complete [(rule.key, value)]) else .error (.unwantedValue rule.key)
  | none => .ok (if rule.valued then .wanting [] rule.key else .complete [(rule.key, "")])

/-- **An argument that starts with a dash.** -/
def readOption (rules : List OptionRule) (cs : List Char) : Except UsageError Reading :=
  match rules.find? fun rule => rule.long.toList == cs.takeWhile (· != '=') with
  | some rule => readLong rule (attachedValue cs)
  | none =>
    match cs with
    | '-' :: '-' :: _ => .error (.unknownOption (String.ofList cs))
    | _ => readLetters rules (cs.drop 1)

def withOptions (given : List (OptionKey × String)) (arguments : Arguments) : Arguments :=
  { arguments with options := given ++ arguments.options }

def withInput (text : String) (arguments : Arguments) : Arguments :=
  { arguments with inputs := text :: arguments.inputs }

/-- A dash with something behind it. -/
def isOption (text : String) : Bool :=
  match text.toList with
  | '-' :: _ :: _ => true
  | _ => false

/-- **The reading of a command line.** -/
def parse (rules : List OptionRule) : List String → Except UsageError Arguments
  | [] => .ok {}
  | text :: rest =>
    if text = "--" then .ok { inputs := rest }
    else if isOption text then
      match readOption rules text.toList with
      | .error e => .error e
      | .ok (.complete given) => (parse rules rest).map (withOptions given)
      | .ok (.wanting given key) =>
        match rest with
        | [] => .error (.missingValue key)
        | value :: others => (parse rules others).map (withOptions (given ++ [(key, value)]))
    else (parse rules rest).map (withInput text)

/-! ## What was given -/

def has (arguments : Arguments) (key : OptionKey) : Bool :=
  arguments.options.any (·.1 == key)

/-- The value of an option, as it was given last. -/
def value? (arguments : Arguments) (key : OptionKey) : Option String :=
  arguments.options.reverse.lookup key

/-- The texts that name files: all inputs and the values of the two options. -/
def fileTexts (arguments : Arguments) : List String :=
  arguments.inputs ++ (arguments.value? .output).toList ++ (arguments.value? .listing).toList

/-- **The input file,** of which there has to be one, and which has to be there. -/
def input (look : String → Store.Look) (arguments : Arguments) : Except UsageError Path :=
  match arguments.inputs with
  | [] => .error .missingInput
  | text :: more =>
    match look text with
    | .absent => .error (.absentInput text)
    | .directory => .error (.directory text)
    | .unaskable => .error (.nullCharacter text)
    | .file =>
      match more with
      | [] => .ok (.parse text)
      | extra :: _ => .error (.extraInput extra)

/-- **A file to be written,** which must not be a directory. -/
def target (look : String → Store.Look) (arguments : Arguments) (key : OptionKey) :
    Except UsageError (Option Path) :=
  match arguments.value? key with
  | none => .ok none
  | some text =>
    match look text with
    | .directory => .error (.directory text)
    | .unaskable => .error (.nullCharacter text)
    | .absent | .file => .ok (some (.parse text))

/-- **The files to be written are looked at in the order in which they were named first,** and
    before the input file; the first that is wrong is the one that counts. -/
def checkTargets (look : String → Store.Look) (keys : List OptionKey) (arguments : Arguments) :
    Except UsageError Unit :=
  match ((arguments.options.map (·.1)).filter keys.contains).mapM (arguments.target look) with
  | .ok _ => .ok ()
  | .error e => .error e

end Arguments

end Chip8
