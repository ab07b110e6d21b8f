import Chip8.Proofs.Concatenation
import Chip8.Proofs.FileSystems
import Chip8.Proofs.Sessions
import Chip8.Proofs.Utf8

/-!
# Sources that come from files

A source can be given as a text or lie in a file, and a file is not read as it was written: its line
ends are normalized before the text is cut into lines.  Neither that nor the line feed that closes
every file of lines makes a difference to the assembler (`assemble_from_file`).

* `Text.splitLines_normalizeBreaks` is about line ends.  Normalizing turns one boundary into another
  and a pair of characters that is one boundary into a single one, so the lines stay.
* `assemble_eq_of_lines` says that a run sees nothing of a source but its lines.
* `Store.read_write` reads a file back after it was written.

Which characters stand at the ends of lines is never asked, so texts that mix all of them are
covered, and so are lines of a list that end in a boundary of their own.
-/

namespace Chip8

/-! ## Line ends -/

namespace Text

/-- **Normalizing line ends keeps the lines.** -/
lemma splitLines_normalizeBreaks (cs : List Char) :
    splitLines (Utf8.normalizeBreaks cs) = splitLines cs := by
  fun_induction Utf8.normalizeBreaks cs with
  | case1 => rfl
  | case2 rest ih => rw [splitLines_lineFeed, ih, splitLines]
  | case3 rest hpair ih =>
      have hreturn : isLineBreak '\r' = true := by decide
      rw [splitLines_lineFeed, ih, splitLines_break hreturn]
      intro tail _ hrest
      exact hpair tail hrest
  | case4 c rest hpair hreturn ih =>
      have hne : ∀ others tail : List Char, c = '\r' → others ≠ '\n' :: tail := by
        intro others tail hc
        exact absurd hc hreturn
      by_cases hbreak : isLineBreak c = true
      · rw [splitLines_break hbreak (hne _), splitLines_break hbreak (hne _), ih]
      · rw [Bool.not_eq_true] at hbreak
        rw [splitLines_cons hbreak, splitLines_cons hbreak, ih]

/-- **A text has the same lines when it is read from its file.** -/
lemma lines_readText {text read : String} (h : Utf8.readText (Utf8.encode text) = .ok read) :
    lines read = lines text := by
  rw [Utf8.readText_encode, Except.ok.injEq] at h
  rw [← h, lines, String.toList_ofList, splitLines_normalizeBreaks, lines]

end Text

lemma assemble_eq_of_lines {source other : String} (h : Text.lines source = Text.lines other)
    (table : Table) (load : Int) : assemble table load source = assemble table load other := by
  rw [assemble, h, assemble]

/-! ## Files that are written and read -/

/-- **A file holds what was written to it.** -/
lemma Store.read_write {store written : Store} {path : Path} {bytes : List UInt8}
    (h : store.write path bytes = .ok written) : written.read path = .ok bytes := by
  obtain ⟨place, hplace, hentry, rfl⟩ := write_eq_ok_iff.mp h
  refine read_eq_ok_iff.mpr ⟨place, (locate_put hentry path).mpr hplace, ?_⟩
  rw [get?_put store (ne_nil_of_get? hentry), if_pos rfl]

/-- The text of a file that holds a text, with other line ends perhaps. -/
lemma exists_sourceText (text : String) :
    ∃ read, sourceText (.ok (Utf8.encode text)) = .ok read ∧ Text.lines read = Text.lines text := by
  refine ⟨_, ?_, Text.lines_readText (Utf8.readText_encode text)⟩
  simp only [sourceText, Except.mapError, bind, Except.bind, Utf8.readText_encode]

/-! ## Assembling a file -/

namespace Session

variable (session : Session)

/-- Two sources with the same lines are not told apart. -/
lemma assembleAs_eq_of_lines {source other : String} (h : Text.lines source = Text.lines other)
    (file : String) : session.assembleAs file source = session.assembleAs file other := by
  simp only [assembleAs, assemble_eq_of_lines h]

/-- **A file that holds a text is assembled as the text,** under the name of the file. -/
lemma perform_assembleFile {path : Path} {text : String}
    (h : session.store.read path = .ok (Utf8.encode text)) :
    session.perform (.assembleFile path) = session.perform (.assemble text path.text) := by
  obtain ⟨read, hread, hlines⟩ := exists_sourceText text
  have hsame := session.assembleAs_eq_of_lines hlines path.text
  simp only [perform, h, hread, hsame]

/-- The line feed that closes a file of lines is not seen. -/
lemma perform_assemble_closeLines (ls : List String) (file : String) :
    session.perform (.assemble (Text.closeLines ls) file) =
      session.perform (.assemble ("\n".intercalate ls) file) := by
  simp only [perform, assembleAs, Text.closeLines, assemble_lineFeed]

end Session

/-- **Going through a file does not change the meaning of a source.**  A session that assembles a
    file which holds a text is left with the run over the text, and it does in every way as if it
    was given the text under the name of the file.  The text that is read from the file is assembled
    as the text as well.  A file that was made of a list of lines is assembled as the lines joined
    by line feeds. -/
theorem assemble_from_file (session : Session) (path : Path) :
    (∀ text, session.store.read path = .ok (Utf8.encode text) →
      (session.perform (.assembleFile path)).session.run =
        assemble session.table session.settings.loadAddress text ∧
      session.perform (.assembleFile path) = session.perform (.assemble text path.text) ∧
      ∃ read, sourceText (session.store.read path) = .ok read ∧
        ∀ file, session.perform (.assemble read file) = session.perform (.assemble text file)) ∧
    ∀ ls store, session.store.write path (sourceBytes ls) = .ok store →
      (session.onFiles store).perform (.assembleFile path) =
        (session.onFiles store).perform (.assemble ("\n".intercalate ls) path.text) := by
  constructor
  · intro text h
    have hfile := session.perform_assembleFile h
    obtain ⟨read, hread, hlines⟩ := exists_sourceText text
    refine ⟨?_, hfile, read, ?_, ?_⟩
    · rw [hfile]
      rfl
    · rw [h, hread]
    · intro file
      exact session.assembleAs_eq_of_lines hlines file
  · intro ls store h
    have hread : (session.onFiles store).store.read path = .ok (sourceBytes ls) :=
      Store.read_write h
    rw [(session.onFiles store).perform_assembleFile hread, Session.perform_assemble_closeLines]

/-- A file that mixes five kinds of line ends, and a list whose lines end in boundaries. -/
theorem assemble_from_file_mixed :
    ∃ (session : Session) (path : Path) (text : String) (ls : List String) (store : Store),
      text = "CLS\r\r\nHALT\n\rRET\x0bJP 512\u2028LD V0, 7\r" ∧
      ls = ["CLS\r", "RET\n", "HALT\r"] ∧
      session.store.read path = .ok (Utf8.encode text) ∧
      session.store.write path (sourceBytes ls) = .ok store ∧
      (session.perform (.assembleFile path)).session.run.code =
        [0x00, 0xE0, 0x00, 0xEE, 0x12, 0x00, 0x60, 0x07] ∧
      (session.perform (.assembleFile path)).session.run.diagnostics.map (·.line) = [3] ∧
      (session.onFiles store).perform (.assembleFile path) =
        (session.onFiles store).perform (.assemble "CLS\r\nRET\n\nHALT\r" path.text) := by
  set text := "CLS\r\r\nHALT\n\rRET\x0bJP 512\u2028LD V0, 7\r"
  set ls := ["CLS\r", "RET\n", "HALT\r"]
  set path : Path := ⟨.current, ["a.chasm"]⟩
  set session : Session := { store := ⟨[], [(["a.chasm"], .file (Utf8.encode text))]⟩ }
  have hplace : session.store.locate path = .ok ["a.chasm"] := by decide
  have hentry : session.store.get? ["a.chasm"] = some (.file (Utf8.encode text)) := rfl
  have hread : session.store.read path = .ok (Utf8.encode text) :=
    Store.read_eq_ok_iff.mpr ⟨_, hplace, hentry⟩
  have hwrite : session.store.write path (sourceBytes ls) =
      .ok (session.store.put ["a.chasm"] (.file (sourceBytes ls))) :=
    Store.write_eq_ok_iff.mpr ⟨_, hplace, by simp [hentry], rfl⟩
  obtain ⟨hrun, -, -⟩ := (assemble_from_file session path).1 text hread
  refine ⟨session, path, text, ls, _, rfl, rfl, hread, hwrite, ?_, ?_, ?_⟩
  · rw [hrun]
    decide +kernel
  · rw [hrun]
    decide +kernel
  · exact (assemble_from_file session path).2 ls _ hwrite

end Chip8
