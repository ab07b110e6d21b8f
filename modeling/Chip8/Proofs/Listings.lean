import Chip8.Proofs.Accounts
import Chip8.Proofs.Reasons
import Chip8.Proofs.SourceFiles

/-!
# Listings

A listing is one text, but it is written to its file line by line.  The two are the same, and the
rows of a listing are the lines it was made of, if no text that is put into a row breaks it.  Source
lines and reasons are such texts, whatever characters the source has.

* `Run.IsUnbroken` is what is needed of a run, and every run over a source has it if the mnemonics
  of the table are unbroken (`isUnbroken_assemble`).
* `Text.columns` are the columns of a row.  The second one is the word
  (`Run.columns_listingRow`), since neither an address nor a word has a blank in it.
* `Run.Listed` is all that is said about a listing, and `listing_file` says it about the listings of
  all sessions.
-/

namespace Chip8

/-! ## Columns -/

/-- **The columns of a row:** its runs of characters that are no blanks. -/
def Text.columns (row : String) : List String := (runs isBlank row.toList).map String.ofList

namespace Hex

lemma capital_of_mem_digits {n : Nat} {c : Char} (h : c ∈ digits n) :
    (c.isUpper || c.isDigit) = true := by
  have hdigit : ∀ d : Fin 16,
      ((Nat.digitChar d).toUpper.isUpper || (Nat.digitChar d).toUpper.isDigit) = true := by decide
  rw [digits, List.mem_map] at h
  obtain ⟨d, hd, rfl⟩ := h
  induction n using Nat.strongRecOn with
  | ind n ih =>
      by_cases hsmall : n < 16
      · rw [Nat.toDigits_of_lt_base hsmall, List.mem_singleton] at hd
        exact hd ▸ hdigit ⟨n, hsmall⟩
      · rw [Nat.toDigits_of_base_le (by decide) (by omega), List.mem_append,
          List.mem_singleton] at hd
        rcases hd with hd | rfl
        · exact ih (n / 16) (by omega) hd
        · exact hdigit ⟨n % 16, Nat.mod_lt n (by decide)⟩

lemma isBlank_of_mem_padded {width : Nat} {n : Int} {c : Char} (h : c ∈ (padded width n).toList) :
    Text.isBlank c = false := by
  have hfill : ∀ width n, c ∈ padded.fill width (digits n) → Text.isBlank c = false := by
    intro width n hmem
    rw [padded.fill, List.mem_append] at hmem
    rcases hmem with hmem | hmem
    · rw [List.eq_of_mem_replicate hmem]
      decide
    · exact (capital_plain (capital_of_mem_digits hmem)).2.1
  cases n with
  | ofNat n =>
      rw [padded, String.toList_ofList] at h
      exact hfill _ _ h
  | negSucc n =>
      rw [padded, String.toList_ofList, List.mem_cons] at h
      rcases h with rfl | h
      · decide
      · exact hfill _ _ h

/-- **Bytes in hexadecimal,** two capital digits for each. -/
def ofBytes (bytes : List UInt8) : String :=
  String.ofList (bytes.flatMap fun b => [digit (b.toNat / 16), digit (b.toNat % 16)])

end Hex

/-- The digits of a word are those of its two bytes. -/
lemma Word.ofBytes_bytes_hex (w : Word) : Hex.ofBytes w.bytes = w.hex := by
  have hw := w.value_lt
  have hhigh : (UInt8.ofNat (w.value / 256)).toNat = w.value / 256 := by
    rw [UInt8.toNat_ofNat']
    omega
  have hlow : (UInt8.ofNat (w.value % 256)).toNat = w.value % 256 := by
    rw [UInt8.toNat_ofNat']
    omega
  have hnibbles : w.nibbles =
      [w.value / 256 / 16, w.value / 256 % 16, w.value % 256 / 16, w.value % 256 % 16] := by
    simp only [nibbles, List.cons.injEq, and_true, true_and]
    omega
  rw [hex, hnibbles, Hex.ofBytes, bytes]
  simp only [List.flatMap_cons, List.flatMap_nil, hhigh, hlow, List.map_cons, List.map_nil,
    List.cons_append, List.nil_append]

lemma addressText_ne_nil (address : Int) : (addressText address).toList ≠ [] := by
  simp [addressText]

lemma isBlank_of_mem_addressText {address : Int} {c : Char}
    (h : c ∈ (addressText address).toList) : Text.isBlank c = false := by
  rw [addressText, String.toList_append, List.mem_append] at h
  rcases h with h | h
  · obtain rfl : c = '$' := by simpa using h
    decide
  · exact Hex.isBlank_of_mem_padded h

lemma isBlank_of_mem_hex {w : Word} {c : Char} (h : c ∈ w.hex.toList) : Text.isBlank c = false :=
  (capital_plain ((isCapitalWord_hex w).2 c h)).2.1

namespace Run

/-- **The second column of a row is the word.** -/
lemma columns_listingRow (line : EncodedLine) :
    (Text.columns (listingRow line))[1]? = some line.word.hex := by
  have hmargin : ∀ c ∈ "    ".toList, Text.isBlank c = true := List.all_eq_true.mp (by decide)
  have hrow : Text.runs Text.isBlank (listingRow line).toList =
      (addressText line.address).toList :: line.word.hex.toList :: Text.runs Text.isBlank
        ((Numeral.rightAligned 4 (Numeral.ofInt line.line)).toList ++
          ("  ".toList ++ (Text.strip line.source).toList)) := by
    simp only [listingRow, String.toList_append, List.append_assoc]
    rw [Text.runs_uncut_append (addressText_ne_nil _) (fun c => isBlank_of_mem_addressText)
        (by decide) hmargin,
      Text.runs_uncut_append (isCapitalWord_hex _).1 (fun c => isBlank_of_mem_hex)
        (by decide) hmargin]
  rw [Text.columns, hrow]
  simp

/-! ## Runs that can be listed -/

/-- **A run whose texts are unbroken:** its source lines and its reasons. -/
structure IsUnbroken (run : Run) : Prop where
  source : ∀ e ∈ run.instructions, Text.IsUnbroken e.source
  reason : ∀ r ∈ run.rejections, Text.IsUnbroken r.reason

/-- The lines of which a listing is made. -/
def listingLines (run : Run) : List String :=
  listingHeading :: run.instructions.map listingRow ++ run.droppedRows

lemma isUnbroken_listingRow {line : EncodedLine} (h : Text.IsUnbroken line.source) :
    Text.IsUnbroken (listingRow line) := by
  have hspaces : ∀ n, Text.IsUnbroken (String.ofList (List.replicate n ' ')) := by
    intro n c hc
    rw [String.toList_ofList] at hc
    rw [List.eq_of_mem_replicate hc]
    decide
  simp only [listingRow, Numeral.rightAligned, Text.isUnbroken_append]
  exact ⟨⟨⟨⟨⟨⟨fun c hc => Text.isLineBreak_of_not_isBlank (isBlank_of_mem_addressText hc),
    by decide⟩, (isCapitalWord_hex _).isUnbroken⟩, by decide⟩, hspaces _,
    Numeral.isUnbroken_ofInt _⟩, by decide⟩, h.strip⟩

lemma isUnbroken_diagnostic {r : Rejection} (h : Text.IsUnbroken r.reason) :
    Text.IsUnbroken ("  " ++ r.diagnostic.text) := by
  simp only [Diagnostic.text, Rejection.diagnostic, Text.isUnbroken_append]
  exact ⟨by decide, ⟨⟨by decide, Numeral.isUnbroken_ofInt _⟩, by decide⟩, h⟩

lemma droppedRows_eq (run : Run) :
    run.droppedRows = if run.diagnostics = [] then []
      else "" :: "Dropped lines:" :: run.diagnostics.map fun d => "  " ++ d.text := by
  have hempty : run.hasErrors = true ↔ ¬ run.diagnostics = [] := by
    simp [hasErrors, diagnostics]
  by_cases h : run.diagnostics = []
  · rw [droppedRows, if_pos h, if_neg (mt hempty.mp (not_not.mpr h))]
  · rw [droppedRows, if_neg h, if_pos (hempty.mpr h)]

variable {run : Run} (h : run.IsUnbroken)
include h

lemma IsUnbroken.row : ∀ row ∈ run.listingLines, Text.IsUnbroken row := by
  have hrows : ∀ row ∈ run.instructions.map listingRow, Text.IsUnbroken row := by
    intro row hrow
    obtain ⟨e, he, rfl⟩ := List.mem_map.mp hrow
    exact isUnbroken_listingRow (h.source e he)
  have hdropped : ∀ row ∈ run.droppedRows, Text.IsUnbroken row := by
    rw [droppedRows_eq]
    split_ifs
    · exact List.forall_mem_nil _
    · refine List.forall_mem_cons.mpr ⟨by decide, List.forall_mem_cons.mpr ⟨by decide, ?_⟩⟩
      intro row hrow
      obtain ⟨d, hd, rfl⟩ := List.mem_map.mp hrow
      obtain ⟨r, hr, rfl⟩ := List.mem_map.mp hd
      exact isUnbroken_diagnostic (h.reason r hr)
  rw [Run.listingLines, List.cons_append, List.forall_mem_cons, List.forall_mem_append]
  exact ⟨by decide, hrows, hdropped⟩

/-- **The lines of a listing are those it is made of.** -/
lemma IsUnbroken.lines_listing : Text.lines run.listing = run.listingLines :=
  Text.lines_closeLines (List.cons_ne_nil _ _) h.row

end Run

/-- Everything in a run comes from a line, also if the run was broken off. -/
lemma exists_line_of_mem_events {table : Table} {address : Int} {lines : List (String × Nat)}
    {event : LineEvent} (h : event ∈ (assembleLines table address lines).events) :
    ∃ line ∈ lines, table.LeadsTo line event := by
  have hcompleted : ∀ part ⊆ lines, (assembleLines table address part).fault = none →
      event ∈ (assembleLines table address part).events →
      ∃ line ∈ lines, table.LeadsTo line event := by
    intro part hpart hfault hevent
    obtain ⟨line, hline, hlead⟩ := exists_of_forall₂ (R := flip table.LeadsTo)
      (List.Forall₂.flip (assembleLines_leadsTo hfault)) hevent
    exact ⟨line, hpart (List.mem_filter.mp hline).1, hlead⟩
  cases hfault : (assembleLines table address lines).fault with
  | none => exact hcompleted lines (List.Subset.refl _) hfault h
  | some fault =>
      obtain ⟨front, line, back, hlines, -, hfront⟩ := exists_of_fault hfault
      refine hcompleted front ?_ (by rw [hfront]) (by rw [hfront]; exact h)
      rw [hlines]
      exact List.subset_append_left _ _

/-- **Every run can be listed,** if the mnemonics of the table are unbroken. -/
theorem isUnbroken_assemble {table : Table}
    (htable : ∀ form ∈ table, Text.IsUnbroken form.mnemonic) (load : Int) (source : String) :
    (assemble table load source).IsUnbroken := by
  have hline : ∀ line ∈ (Text.lines source).zipIdx 1, Text.IsUnbroken line.1 := fun line hmem =>
    Text.isLineBreak_of_mem_lines (List.fst_mem_of_mem_zipIdx hmem)
  constructor
  · intro e he
    obtain ⟨line, hmem, hlead⟩ := exists_line_of_mem_events (Run.mem_instructions_iff.mp he)
    rw [(Table.encodeLine_eq_ok_iff.mp hlead).2.2.2]
    exact hline line hmem
  · intro r hr
    obtain ⟨line, hmem, hlead⟩ := exists_line_of_mem_events (Run.mem_rejections_iff.mp hr)
    obtain ⟨cause, hcause, rfl⟩ := Table.encodeLine_eq_rejected_iff.mp (hlead 0)
    exact Table.isUnbroken_reason htable (hline line hmem) hcause

/-! ## Listings -/

/-- **The spelling of a word:** four capital hexadecimal digits. -/
def Word.IsSpelled (w : Word) (text : String) : Prop :=
  text.length = 4 ∧ (∀ c ∈ text.toList, c ∈ "0123456789ABCDEF".toList) ∧ ofHex text = .ok w

lemma Word.isSpelled_hex (w : Word) : w.IsSpelled w.hex := by
  have hdigit : ∀ m : Fin 16, Hex.digit m ∈ "0123456789ABCDEF".toList := by decide
  refine ⟨by simp [hex, nibbles], fun c hc => ?_, w.ofHex_hex⟩
  rw [hex, String.toList_ofList, List.mem_map] at hc
  obtain ⟨n, hn, rfl⟩ := hc
  exact hdigit ⟨n, nibble_lt hn⟩

namespace Run

/-- **What a listing shows of a run.** -/
structure Listed (run : Run) : Prop where
  /-- The lines are a heading, a row for each word, and, if lines were dropped, an empty line,
      a heading and a row for each record. -/
  lines : Text.lines run.listing = listingHeading :: run.instructions.map listingRow ++
    if run.diagnostics = [] then []
    else "" :: "Dropped lines:" :: run.diagnostics.map fun d => "  " ++ d.text
  /-- The row of a word has the word in its second column. -/
  word : ∀ (i : Nat) (e : EncodedLine), run.instructions[i]? = some e → ∃ row column,
    (Text.lines run.listing)[i + 1]? = some row ∧ (Text.columns row)[1]? = some column ∧
      e.word.IsSpelled column
  /-- The second columns of these rows, put together, are the image. -/
  image : String.join ((((Text.lines run.listing).drop 1).take run.instructions.length).filterMap
    fun row => (Text.columns row)[1]?) = Hex.ofBytes run.code
  /-- The file is the listing. -/
  file : run.listingBytes = Utf8.encode run.listing

/-- The digits of an image are those of its words. -/
lemma ofBytes_code (run : Run) :
    Hex.ofBytes run.code = String.join (run.instructions.map (·.word.hex)) := by
  rw [code]
  induction run.instructions with
  | nil => rfl
  | cons line rest ih =>
      have happend : ∀ xs ys, Hex.ofBytes (xs ++ ys) = Hex.ofBytes xs ++ Hex.ofBytes ys := by
        intro xs ys
        simp [Hex.ofBytes]
      rw [List.flatMap_cons, happend, Word.ofBytes_bytes_hex, ih, List.map_cons, String.join_cons]

/-- **A run that can be listed is what its listing shows.** -/
theorem IsUnbroken.listed {run : Run} (h : run.IsUnbroken) : run.Listed := by
  have hlines := h.lines_listing
  have hcolumns : (run.instructions.map listingRow).filterMap
      (fun row => (Text.columns row)[1]?) = run.instructions.map (·.word.hex) := by
    rw [List.filterMap_map, ← List.filterMap_eq_map]
    exact List.filterMap_congr fun line _ => columns_listingRow line
  refine ⟨?_, fun i e he => ?_, ?_, ?_⟩
  · rw [hlines, listingLines, droppedRows_eq]
  · refine ⟨listingRow e, e.word.hex, ?_, columns_listingRow e, e.word.isSpelled_hex⟩
    have hrow : (run.instructions.map listingRow)[i]? = some (listingRow e) := by
      rw [List.getElem?_map, he, Option.map_some]
    have hlt := (List.getElem?_eq_some_iff.mp hrow).1
    rw [hlines, listingLines, List.cons_append, List.getElem?_cons_succ,
      List.getElem?_append_left hlt, hrow]
  · rw [hlines, listingLines, List.cons_append, List.drop_one, List.tail_cons,
      List.take_left' (List.length_map _), hcolumns, ofBytes_code]
  · rw [listingBytes, sourceBytes, hlines]
    rfl

end Run

/-- **The file of a listing is the listing,** and a listing shows the run: in every session that
    works with the standard table, whatever its settings and its history are.  The text that is
    asked for is the text that is written, and a file to which it could be written holds its bytes
    and nothing else. -/
theorem listing_file (settings : Settings) (store : Store) (history : List Occurrence) :
    ∃ session, (Session.fresh settings Table.standard store).afterAll history = session ∧
      session.run.Listed ∧
      session.perform (.ask .listing) =
        { session := session, answer := some (.text session.run.listing) } ∧
      (∀ path written, session.store.write path (Utf8.encode session.run.listing) = .ok written →
        session.perform (.writeListing path) =
          { session := session.onFiles written, log := [sourceWritten path] } ∧
        written.read path = .ok (Utf8.encode session.run.listing)) ∧
      ∀ path e, session.store.write path (Utf8.encode session.run.listing) = .error e →
        session.perform (.writeListing path) =
          { session := session, failure := some (.system e) } := by
  set fresh := Session.fresh settings Table.standard store with hfresh
  set session := fresh.afterAll history
  have hrun : session.run.IsUnbroken := by
    have hsession := congrArg Session.run (fresh.afterAll_eq history)
    have htable : ∀ form ∈ Table.standard, Text.IsUnbroken form.mnemonic := fun form hm =>
      (Table.standard_capital form hm).isUnbroken
    cases hlast : (fresh.texts history).getLast? with
    | none =>
        rw [hlast] at hsession
        rw [hsession]
        exact ⟨List.forall_mem_nil _, List.forall_mem_nil _⟩
    | some text =>
        rw [hlast] at hsession
        rw [hsession]
        exact isUnbroken_assemble htable settings.loadAddress text
  have hlisted := hrun.listed
  refine ⟨session, rfl, hlisted, rfl, fun path written h => ⟨?_, Store.read_write h⟩,
    fun path e h => ?_⟩
  · rw [Session.perform, Session.writeFile, hlisted.file, h]
    rfl
  · rw [Session.perform, Session.writeFile, hlisted.file, h]

/-- A source that is broken by five boundaries, none of which is a line feed, and by none of its
    blanks: one of them is part of a token and is shown in the reason. -/
theorem listing_file_boundaries :
    ∃ session path written,
      (Session.fresh {} Table.standard {}).afterAll
        [.told (.assemble "LD V0,\x0b1\x1cd0\u00a012\u2028DRW V1\x85HALT\u2029 d012")] = session ∧
      session.run.instructions.map (·.source) = [" d012"] ∧
      session.run.diagnostics.map (·.reason) =
        ["LD expects 2 operand(s), got 1", "cannot encode '1' as a 2-byte opcode",
          "cannot encode 'd0\u00a012' as a 2-byte opcode", "DRW expects 3 operand(s), got 1",
          "cannot encode 'HALT' as a 2-byte opcode"] ∧
      session.store.write path (Utf8.encode session.run.listing) = .ok written ∧
      written.read path = .ok (Utf8.encode session.run.listing) ∧
      (Text.lines session.run.listing).length = 9 := by
  obtain ⟨session, hsession, hlisted, -, hwrite, -⟩ := listing_file {} {}
    [.told (.assemble "LD V0,\x0b1\x1cd0\u00a012\u2028DRW V1\x85HALT\u2029 d012")]
  set path : Path := ⟨.current, ["a.lst"]⟩
  have hwritten : session.store.write path (Utf8.encode session.run.listing) =
      .ok (session.store.put ["a.lst"] (.file (Utf8.encode session.run.listing))) := by
    refine Store.write_eq_ok_iff.mpr ⟨_, ?_, ?_, rfl⟩
    · rw [← hsession]
      decide
    · rw [← hsession]
      decide
  have hrun : session.run.instructions.map (·.source) = [" d012"] ∧
      session.run.diagnostics.map (·.reason) =
        ["LD expects 2 operand(s), got 1", "cannot encode '1' as a 2-byte opcode",
          "cannot encode 'd0\u00a012' as a 2-byte opcode", "DRW expects 3 operand(s), got 1",
          "cannot encode 'HALT' as a 2-byte opcode"] := by
    rw [← hsession]
    decide +kernel
  have hinstructions : session.run.instructions.length = 1 := by
    simpa using congrArg List.length hrun.1
  have hdiagnostics : session.run.diagnostics.length = 5 := by
    simpa using congrArg List.length hrun.2
  refine ⟨session, path, _, hsession, hrun.1, hrun.2, hwritten, (hwrite _ _ hwritten).2, ?_⟩
  rw [hlisted.lines, if_neg (List.ne_nil_of_length_pos (by omega))]
  simp [hinstructions, hdiagnostics]

end Chip8
