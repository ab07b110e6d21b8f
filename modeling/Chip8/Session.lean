import Chip8.Assembly
import Chip8.Failure
import Chip8.Files.Content
import Chip8.Files.Store
import Chip8.Settings

/-!
# Sessions

A session is an assembler at work: it assembles one text after the other, from a string or from
a file, writes out what the last run left and answers questions about it.

* `Session` is the state: the last run, and the store that files are read from and written to.
* `Command` are the things a session is told to do, `Session.perform` does one of them.
* `Question` and `Answer` are what it can be asked, `Run.answer` the answers.
* `Session.afterAll` is the session after a history of commands, between which others may change
  the files.

The run in a session is replaced only by a text that is really assembled.  A file that cannot be
read leaves it alone, and neither writing nor asking changes it.
-/

namespace Chip8

def inputName : String := "<input>"

/-- **An assembler at work.** -/
structure Session where
  settings : Settings := {}
  table : Table := Table.standard
  run : Run := {}
  store : Store := {}

/-- A new assembler, which has not run yet. -/
def Session.fresh (settings : Settings) (table : Table) (store : Store) : Session :=
  { settings := settings, table := table, store := store }

/-! ## Questions -/

/-- **What a session can be asked about its last run.** -/
inductive Question
  | code | instructions | rejections | diagnostics | hasErrors | listing | report
  deriving DecidableEq

inductive Answer
  | bytes (bytes : List UInt8)
  | instructions (lines : List EncodedLine)
  | rejections (rejections : List Rejection)
  | diagnostics (diagnostics : List Diagnostic)
  | flag (flag : Bool)
  | text (text : String)
  deriving DecidableEq

/-- **What a run answers.** -/
def Run.answer (run : Run) : Question → Answer
  | .code => .bytes run.code
  | .instructions => .instructions run.instructions
  | .rejections => .rejections run.rejections
  | .diagnostics => .diagnostics run.diagnostics
  | .hasErrors => .flag run.hasErrors
  | .listing => .text run.listing
  | .report => .text run.report

/-! ## Commands -/

/-- **What a session can be told to do.**  A source has a name, by which the trail refers to it. -/
inductive Command
  | assemble (source : String) (file : String := inputName)
  | assembleFile (path : Path)
  | writeRom (path : Path)
  | writeListing (path : Path)
  | ask (question : Question)
  deriving DecidableEq

/-- **What became of a command:** the session after it, the answer or the failure, its trail. -/
structure Performed where
  session : Session
  answer : Option Answer := none
  failure : Option Failure := none
  log : List LogEntry := []

/-- **The file of a listing,** which is written line by line. -/
def Run.listingBytes (run : Run) : List UInt8 := sourceBytes (Text.lines run.listing)

namespace Session

/-- The run over a source; its answer is the image, unless it was broken off. -/
def assembleAs (session : Session) (file source : String) : Performed :=
  let run := Chip8.assemble session.table session.settings.loadAddress source
  { session := { session with run := run }
    answer := if run.fault.isSome then none else some (run.answer .code)
    failure := run.fault.map .faulted
    log := run.log file }

def writeFile (session : Session) (path : Path) (bytes : List UInt8) (entry : LogEntry) :
    Performed :=
  match session.store.write path bytes with
  | .ok store => { session := { session with store := store }, log := [entry] }
  | .error e => { session := session, failure := some (.system e) }

/-- **One command is done.** -/
def perform (session : Session) : Command → Performed
  | .assemble source file => session.assembleAs file source
  | .assembleFile path =>
    match sourceText (session.store.read path) with
    | .ok source => session.assembleAs path.text source
    | .error failure => { session := session, failure := some failure }
  | .writeRom path =>
    session.writeFile path session.run.code (romWritten path session.run.code)
  | .writeListing path =>
    session.writeFile path session.run.listingBytes (sourceWritten path)
  | .ask question => { session := session, answer := some (session.run.answer question) }

end Session

/-! ## Histories -/

/-- **What happens in the life of a session:** it is told something, or others change the files. -/
inductive Occurrence
  | told (command : Command)
  | filesChanged (store : Store)

namespace Session

def after (session : Session) : Occurrence → Session
  | .told command => (session.perform command).session
  | .filesChanged store => { session with store := store }

/-- **A session after its history.** -/
def afterAll (session : Session) (history : List Occurrence) : Session :=
  history.foldl after session

end Session

end Chip8
