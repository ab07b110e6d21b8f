import Chip8.Session
import Chip8.Proofs.Lines
import Chip8.Proofs.Runs

/-!
# What a session remembers

A session remembers the last text that reached the assembler, and nothing else: whatever it was told
before, it stands as a new session would that had assembled this one text (`afterAll_fresh`).  The
files are the only other thing that a history leaves behind.

* `Session.text?` is the text that a command brings to be assembled, and `Session.texts` are those
  of a history.  Which they are depends on what the files hold when they are read.
* `Session.after_eq` is the step: a text replaces the run, anything else leaves all but the files
  alone.  `Session.afterAll_eq` is the history, by induction.
* `assemble_closeLines_of_fault` is about a text that breaks the run off: what is left is the run
  over the lines in front of the one that did it.
-/

namespace Chip8

namespace Session

/-! ## The texts of a history -/

/-- **The text that a command brings to be assembled,** if it brings one. -/
def text? (session : Session) : Command → Option String
  | .assemble source _ => some source
  | .assembleFile path => (sourceText (session.store.read path)).toOption
  | .writeRom _ | .writeListing _ | .ask _ => none

def brought? (session : Session) : Occurrence → Option String
  | .told command => session.text? command
  | .filesChanged _ => none

/-- **The texts that reach the assembler in a history,** the last one last. -/
def texts : Session → List Occurrence → List String
  | _, [] => []
  | session, occurrence :: rest =>
    (session.brought? occurrence).toList ++ (session.after occurrence).texts rest

/-- A session that has assembled a text, if there is one. -/
def assembled (session : Session) : Option String → Session
  | some text => (session.perform (.assemble text)).session
  | none => session

/-- A session on other files. -/
def onFiles (session : Session) (store : Store) : Session := { session with store := store }

variable (session : Session)

/-! ## One command -/

/-- **Writing changes the files only,** whether it succeeds or not. -/
lemma writeFile_eq (path : Path) (bytes : List UInt8) (entry : LogEntry) :
    (session.writeFile path bytes entry).session =
      session.onFiles (session.writeFile path bytes entry).session.store := by
  rw [writeFile]
  cases session.store.write path bytes with
  | ok store => rfl
  | error e => rfl

/-- A file that cannot be read leaves everything as it was. -/
lemma perform_assembleFile_failed {path : Path} {failure : Failure}
    (h : sourceText (session.store.read path) = .error failure) :
    session.perform (.assembleFile path) = { session := session, failure := some failure } := by
  rw [perform, h]

/-- **A command leaves a session as it was, or as the text leaves it that it brings,** but for the
    files. -/
lemma perform_eq (command : Command) :
    (session.perform command).session =
      (session.assembled (session.text? command)).onFiles
        (session.perform command).session.store := by
  cases command with
  | assemble source file => rfl
  | assembleFile path =>
      rw [perform, text?]
      cases sourceText (session.store.read path) with
      | ok source => rfl
      | error failure => rfl
  | writeRom path => exact session.writeFile_eq path _ _
  | writeListing path => exact session.writeFile_eq path _ _
  | ask question => rfl

lemma after_eq (occurrence : Occurrence) :
    session.after occurrence =
      (session.assembled (session.brought? occurrence)).onFiles
        (session.after occurrence).store := by
  cases occurrence with
  | told command => exact session.perform_eq command
  | filesChanged store => rfl

/-! ## A history -/

@[simp] lemma onFiles_onFiles (store store' : Store) :
    (session.onFiles store).onFiles store' = session.onFiles store' := rfl

lemma assembled_onFiles (store : Store) (text : Option String) :
    (session.onFiles store).assembled text = (session.assembled text).onFiles store := by
  cases text with
  | none => rfl
  | some text => rfl

/-- **A text leaves nothing of the text before it.** -/
lemma assembled_assembled (first second : Option String) :
    (session.assembled first).assembled second = session.assembled (second.or first) := by
  cases second with
  | none => rfl
  | some text => cases first <;> rfl

lemma getLast?_texts_cons (occurrence : Occurrence) (rest : List Occurrence) :
    (session.texts (occurrence :: rest)).getLast? =
      ((session.after occurrence).texts rest).getLast?.or (session.brought? occurrence) := by
  rw [texts, List.getLast?_append]
  cases session.brought? occurrence <;> rfl

/-- **A session stands as its last text leaves it,** but for the files. -/
theorem afterAll_eq (history : List Occurrence) :
    session.afterAll history =
      (session.assembled (session.texts history).getLast?).onFiles
        (session.afterAll history).store := by
  induction history generalizing session with
  | nil => rfl
  | cons occurrence rest ih =>
      set next := session.after occurrence with hnext
      set last := (next.texts rest).getLast?
      set store := (session.afterAll (occurrence :: rest)).store
      calc session.afterAll (occurrence :: rest)
          = (next.assembled last).onFiles store := ih next
        _ = (((session.assembled (session.brought? occurrence)).onFiles next.store).assembled
              last).onFiles store := by rw [hnext, ← session.after_eq occurrence]
        _ = (session.assembled (last.or (session.brought? occurrence))).onFiles store := by
            rw [assembled_onFiles, onFiles_onFiles, assembled_assembled]
        _ = (session.assembled (session.texts (occurrence :: rest)).getLast?).onFiles store := by
            rw [getLast?_texts_cons]

end Session

/-! ## A text that breaks the run off -/

section BrokenOff

variable {table : Table} {load : Int}

/-- The run over a text that is made of lines is the run over these lines. -/
lemma assemble_closeLines {ls : List String}
    (h : ∀ l ∈ ls, ∀ c ∈ l.toList, Text.isLineBreak c = false) :
    assemble table load (Text.closeLines ls) = assembleLines table load (ls.zipIdx 1) := by
  by_cases hne : ls = []
  · rw [hne]
    rfl
  · rw [assemble, Text.lines_closeLines hne h]

/-- **A run that was broken off is the run over the lines in front of the one that did it.** -/
theorem assemble_closeLines_of_fault {source : String} {fault : Fault}
    (h : (assemble table load source).fault = some fault) :
    ∃ k line, (Text.lines source)[k]? = some line ∧
      (∀ number address, table.encodeLine line number address = .error (.faulted fault)) ∧
      assemble table load (Text.closeLines ((Text.lines source).take k)) =
        { events := (assemble table load source).events } := by
  obtain ⟨front, line, back, hsplit, hline, hfront⟩ := exists_of_fault h
  obtain ⟨before, behind, hlines, rfl, hbehind⟩ := List.zipIdx_eq_append_iff.mp hsplit
  obtain ⟨first, rest, hcons, rfl, -⟩ := List.zipIdx_eq_cons_iff.mp hbehind.symm
  refine ⟨before.length, first, ?_, fun number address => ?_, ?_⟩
  · rw [hlines, hcons, List.getElem?_append_right (Nat.le_refl _), Nat.sub_self]
    rfl
  · exact Table.encodeLine_eq_faulted_iff.mpr hline
  · have hplain : ∀ l ∈ before, ∀ c ∈ l.toList, Text.isLineBreak c = false := by
      intro l hl
      have hmem : l ∈ Text.lines source := hlines ▸ List.mem_append_left _ hl
      exact Text.isLineBreak_of_mem_lines hmem
    rw [hlines, List.take_left, assemble_closeLines hplain, hfront, assemble]

end BrokenOff

/-- **A session stands as a new one would that had only assembled the last text of its history,**
    but for the files, whatever else it was told and whatever failed.  A file that cannot be read
    leaves it as it was, and anything else that brings no text leaves it but for the files.  If the
    last text broke the run off, nothing is left but what the lines in front of the one that did it
    lead to. -/
theorem afterAll_fresh (settings : Settings) (table : Table) (store : Store)
    (history : List Occurrence) :
    ∃ fresh session last, Session.fresh settings table store = fresh ∧
      fresh.afterAll history = session ∧ (fresh.texts history).getLast? = last ∧
      session = { fresh.assembled last with store := session.store } ∧
      (∀ question, (session.perform (.ask question)).answer =
        ((fresh.assembled last).perform (.ask question)).answer) ∧
      (∀ path failure, sourceText (session.store.read path) = .error failure →
        session.perform (.assembleFile path) = { session := session, failure := some failure }) ∧
      (∀ command, session.text? command = none →
        (session.perform command).session =
          { session with store := (session.perform command).session.store }) ∧
      ∀ fault, session.run.fault = some fault →
        ∃ text k line, last = some text ∧ (Text.lines text)[k]? = some line ∧
          (∀ number address, table.encodeLine line number address = .error (.faulted fault)) ∧
          (fresh.assembled (some (Text.closeLines ((Text.lines text).take k)))).run =
            { events := session.run.events } := by
  set fresh := Session.fresh settings table store
  set session := fresh.afterAll history
  set last := (fresh.texts history).getLast?
  have hsession : session = (fresh.assembled last).onFiles session.store :=
    fresh.afterAll_eq history
  have hrun : session.run = (fresh.assembled last).run :=
    (congrArg Session.run hsession).trans rfl
  refine ⟨fresh, session, last, rfl, rfl, rfl, hsession, ?_, ?_, ?_, ?_⟩
  · intro question
    simp only [Session.perform, hrun]
  · intro path failure h
    exact session.perform_assembleFile_failed h
  · intro command h
    have hcommand := session.perform_eq command
    rwa [h] at hcommand
  · intro fault hfault
    rw [hrun] at hfault ⊢
    cases hlast : last with
    | none =>
        rw [hlast] at hfault
        cases hfault
    | some text =>
        rw [hlast] at hfault
        obtain ⟨k, line, hline, hbreaks, hbefore⟩ := assemble_closeLines_of_fault hfault
        exact ⟨text, k, line, rfl, hline, hbreaks, hbefore⟩

end Chip8
