import Chip8.Proofs.Completion

/-!
# Tables made of the rows of a fit table

A table may be cut down, put into another order, or list a row twice.  What is made of the rows of
a fit table in any of these ways encodes and decodes as that table does, as far as it has the rows:
the order in which rows are tried does not matter, because at most one of them accepts the operands
of a line and at most one of them reads a word.

* `Table.row?` is the row by which a line is encoded.
* `Table.WellFormed.lineWord_rows_iff` is the assembler's half: a line has the word it has under the
  whole table, if it is a raw word or its row is there, and none otherwise.  A line whose mnemonic
  is missing does not become a raw word, since no mnemonic is spelled like one.
* `Table.WellFormed.encodeLine_perm_iff` and `encodeLine_perm_faulted_iff` are the case of a
  permutation.
* `Decoder.lookup_rows` is the disassembler's half.
* `subtable_agrees` puts them together for the standard table.
-/

namespace Chip8

namespace Table

/-- **The row by which a line is encoded,** if it is an instruction: the first of its mnemonic that
    accepts its operands. -/
def row? (table : Table) (source : String) : Option Form :=
  match tokens source with
  | [] => none
  | mnemonic :: given =>
    match given.mapM Operand.classify with
    | .error _ => none
    | .ok operands => (accepting? operands (table.forms mnemonic)).toOption.join

variable {table rows : Table} {source first : String} {given : List String}

lemma row?_eq (ht : tokens source = first :: given) (hclass : Classified given) :
    table.row? source =
      (accepting? (given.map Operand.shape) (table.forms first)).toOption.join := by
  rw [Classified] at hclass
  rw [row?, ht]
  simp only [hclass]

/-- The row of a line is selected by its operands. -/
lemma exists_of_row?_eq_some (ht : tokens source = first :: given) {form : Form}
    (h : table.row? source = some form) :
    Classified given ∧
      accepting? (given.map Operand.shape) (table.forms first) = .ok (some form) := by
  cases hclass : given.mapM Operand.classify with
  | error fault =>
      rw [row?, ht] at h
      simp only [hclass] at h
      cases h
  | ok operands =>
      have hshape : Classified given := .of_ok hclass
      refine ⟨hshape, ?_⟩
      rw [row?_eq ht hshape] at h
      cases hselected : accepting? (given.map Operand.shape) (table.forms first) with
      | error fault =>
          rw [hselected] at h
          cases h
      | ok selected =>
          obtain rfl : selected = some form := by rwa [hselected] at h
          rfl

lemma row?_spec (ht : tokens source = first :: given) {form : Form}
    (h : table.row? source = some form) :
    form ∈ table ∧ form.mnemonic = Text.uppercase first :=
  mem_forms.mp (accepting?_spec (exists_of_row?_eq_some ht h).2).1

/-! ## Encoding -/

lemma lineWord_instruction_iff (ht : tokens source = first :: given)
    (hknown : table.isMnemonic first = true) {w : Word} {raw : Bool} :
    table.lineWord source = .ok (w, raw) ↔ table.encode first given = .ok w ∧ raw = false := by
  rw [lineWord_instruction ht hknown]
  cases table.encode first given with
  | ok u => simp [Except.map, eq_comm]
  | error setback => simp [Except.map]

lemma lineWord_raw_iff (ht : tokens source = first :: given)
    (hno : table.isMnemonic first = false) {w : Word} {raw : Bool} :
    table.lineWord source = .ok (w, raw) ↔
      Word.ofHex (Text.strip source) = .ok w ∧ raw = true := by
  rw [lineWord_raw ht hno]
  cases Word.ofHex (Text.strip source) with
  | ok u => simp [eq_comm]
  | error fault => simp

/-- **An instruction is encoded by a row,** which belongs to its mnemonic and accepts its
    operands. -/
lemma exists_of_encode_eq_ok (h : ∀ form ∈ rows, form.WellFormed)
    (hknown : rows.isMnemonic first = true) {w : Word} (hencode : rows.encode first given = .ok w) :
    Classified given ∧ ∃ form ∈ rows, form.mnemonic = Text.uppercase first ∧
      form.accepts (given.map Operand.shape) = .ok true := by
  have hclass := WellFormed.classified_of_encode hencode
  refine ⟨hclass, ?_⟩
  by_contra hno
  have hnone : ∀ form ∈ rows.forms first, form.accepts (given.map Operand.shape) ≠ .ok true := by
    intro form hm ha
    exact hno ⟨form, (mem_forms.mp hm).1, (mem_forms.mp hm).2, ha⟩
  obtain ⟨error, hrefused, -⟩ := encode_refused h hclass hknown hnone
  rw [hencode] at hrefused
  cases hrefused

namespace WellFormed

/-- **An instruction has the word it has under the whole table, if its row is there.** -/
lemma encode_rows_iff (h : table.WellFormed) (hrows : rows ⊆ table)
    (ht : tokens source = first :: given) (hknown : rows.isMnemonic first = true) {w : Word} :
    rows.encode first given = .ok w ↔
      table.encode first given = .ok w ∧ ∃ form ∈ table.row? source, form ∈ rows := by
  constructor
  · intro hencode
    obtain ⟨hclass, form, hm, hn, ha⟩ :=
      exists_of_encode_eq_ok (fun f hf => h.forms f (hrows hf)) hknown hencode
    obtain ⟨hselected, hfill⟩ := h.encode_eq_fill (List.Subset.refl _) hclass (hrows hm) hn ha
    rw [(h.encode_eq_fill hrows hclass hm hn ha).2] at hencode
    refine ⟨hfill.trans hencode, form, ?_, hm⟩
    rw [row?_eq ht hclass, hselected]
    rfl
  · rintro ⟨hencode, form, hrow, hm⟩
    obtain ⟨hclass, hselected⟩ := exists_of_row?_eq_some ht hrow
    obtain ⟨hmem, ha⟩ := accepting?_spec hselected
    obtain ⟨hmt, hn⟩ := mem_forms.mp hmem
    rw [(h.encode_eq_fill (List.Subset.refl _) hclass hmt hn ha).2] at hencode
    exact (h.encode_eq_fill hrows hclass hm hn ha).2.trans hencode

/-- **A line has the word it has under the whole table, if it is a raw word or its row is there,**
    and no word otherwise. -/
theorem lineWord_rows_iff (h : table.WellFormed) (hrows : rows ⊆ table) {w : Word} {raw : Bool} :
    rows.lineWord source = .ok (w, raw) ↔
      table.lineWord source = .ok (w, raw) ∧
        (raw = true ∨ ∃ form ∈ table.row? source, form ∈ rows) := by
  rcases ht : tokens source with _ | ⟨first, given⟩
  · simp [lineWord, ht]
  have hinclusion : rows.isMnemonic first = true → table.isMnemonic first = true := by
    rw [isMnemonic_iff, isMnemonic_iff]
    rintro ⟨form, hm, hn⟩
    exact ⟨form, hrows hm, hn⟩
  cases hknown : rows.isMnemonic first with
  | true =>
      rw [lineWord_instruction_iff ht hknown, lineWord_instruction_iff ht (hinclusion hknown),
        h.encode_rows_iff hrows ht hknown]
      constructor
      · rintro ⟨⟨hencode, hrow⟩, hraw⟩
        exact ⟨⟨hencode, hraw⟩, .inr hrow⟩
      · rintro ⟨⟨hencode, rfl⟩, hraw | hrow⟩
        · cases hraw
        · exact ⟨⟨hencode, hrow⟩, rfl⟩
  | false =>
      rw [lineWord_raw_iff ht hknown]
      constructor
      · rintro ⟨hword, rfl⟩
        have hno := isMnemonic_of_ofHex (fun form hm => (h.forms form hm).mnemonic) ht hword
        exact ⟨(lineWord_raw_iff ht hno).mpr ⟨hword, rfl⟩, .inl rfl⟩
      · rintro ⟨hline, hrow⟩
        cases hwhole : table.isMnemonic first with
        | false => exact (lineWord_raw_iff ht hwhole).mp hline
        | true =>
            -- The mnemonic is missing, so none of its rows can be there.
            obtain ⟨hencode, rfl⟩ := (lineWord_instruction_iff ht hwhole).mp hline
            obtain ⟨form, hform, hm⟩ := hrow.resolve_left Bool.false_ne_true
            obtain ⟨-, hn⟩ := row?_spec ht hform
            rw [isMnemonic_iff.mpr ⟨form, hm, hn⟩] at hknown
            cases hknown

/-- Operands that can be classified are judged. -/
lemma encode_rows_judged (h : table.WellFormed) (hrows : rows ⊆ table) (hclass : Classified given)
    (hknown : rows.isMnemonic first = true) :
    (∃ w, rows.encode first given = .ok w) ∨
      ∃ cause, rows.encode first given = .error (.rejected cause) := by
  by_cases hsel : ∃ form ∈ rows.forms first, form.accepts (given.map Operand.shape) = .ok true
  · obtain ⟨form, hmem, ha⟩ := hsel
    obtain ⟨hm, hn⟩ := mem_forms.mp hmem
    have hform := h.forms form (hrows hm)
    rw [(h.encode_eq_fill hrows hclass hm hn ha).2]
    by_cases hlimit : ∀ q ∈ placements form.slots (given.map Operand.shape), q.2 ≤ q.1.limit
    · obtain ⟨w, hfill, -⟩ := fill_eq hform given ha hlimit
      exact .inl ⟨w, hfill⟩
    · obtain ⟨error, -, hrefused, -⟩ := fill_refused hform given ha hlimit
      exact .inr ⟨_, hrefused⟩
  · obtain ⟨error, hrefused, -⟩ := encode_refused (fun f hf => h.forms f (hrows hf)) hclass hknown
      fun form hmem ha => hsel ⟨form, hmem, ha⟩
    exact .inr ⟨_, hrefused⟩

/-- **A line breaks the run off exactly if it is an instruction whose operands cannot be
    classified.** -/
theorem lineWord_rows_faulted_iff (h : table.WellFormed) (hrows : rows ⊆ table) {fault : Fault} :
    rows.lineWord source = .error (.faulted fault) ↔
      ∃ first given, tokens source = first :: given ∧ rows.isMnemonic first = true ∧
        given.mapM Operand.classify = .error fault := by
  constructor
  · intro hline
    rcases ht : tokens source with _ | ⟨first, given⟩
    · rw [lineWord, ht] at hline
      cases hline
    refine ⟨first, given, rfl, ?_⟩
    cases hknown : rows.isMnemonic first with
    | false =>
        rw [lineWord_raw ht hknown] at hline
        split at hline <;> cases hline
    | true =>
        refine ⟨rfl, ?_⟩
        rw [lineWord_instruction ht hknown] at hline
        cases hclass : given.mapM Operand.classify with
        | error other =>
            rw [encode_faulted hknown hclass] at hline
            cases hline
            rfl
        | ok operands =>
            rcases h.encode_rows_judged hrows (.of_ok hclass) hknown with
              ⟨w, hencode⟩ | ⟨cause, hencode⟩
            · rw [hencode] at hline
              cases hline
            · rw [hencode] at hline
              cases hline
  · rintro ⟨first, given, ht, hknown, hclass⟩
    rw [lineWord_instruction ht hknown, encode_faulted hknown hclass]
    rfl

variable {line address : Int}

/-- **What rows encode,** with the number and the address of the line. -/
lemma encodeLine_rows_iff (h : table.WellFormed) (hrows : rows ⊆ table) {e : EncodedLine} :
    rows.encodeLine source line address = .ok e ↔
      table.encodeLine source line address = .ok e ∧
        (e.raw = true ∨ ∃ form ∈ table.row? source, form ∈ rows) := by
  rw [encodeLine_eq_ok_iff, encodeLine_eq_ok_iff, h.lineWord_rows_iff hrows]
  exact and_right_comm

/-- **A permutation encodes the same lines.** -/
lemma encodeLine_perm_iff (h : table.WellFormed) (hperm : rows.Perm table) {e : EncodedLine} :
    rows.encodeLine source line address = .ok e ↔
      table.encodeLine source line address = .ok e := by
  rw [h.encodeLine_rows_iff hperm.subset]
  refine and_iff_left_of_imp fun he => ?_
  -- Under the table itself a line that is no raw word has its row.
  refine ((h.encodeLine_rows_iff (List.Subset.refl _)).mp he).2.imp_right ?_
  rintro ⟨form, hform, hm⟩
  exact ⟨form, hform, hperm.mem_iff.mpr hm⟩

/-- **A permutation breaks off on the same lines.** -/
lemma encodeLine_perm_faulted_iff (h : table.WellFormed) (hperm : rows.Perm table)
    {fault : Fault} :
    rows.encodeLine source line address = .error (.faulted fault) ↔
      table.encodeLine source line address = .error (.faulted fault) := by
  have hmnemonics : ∀ token, rows.isMnemonic token = table.isMnemonic token := by
    intro token
    rw [Bool.eq_iff_iff, isMnemonic_iff, isMnemonic_iff]
    exact exists_congr fun form => and_congr_left' hperm.mem_iff
  rw [encodeLine_eq_faulted_iff, encodeLine_eq_faulted_iff,
    h.lineWord_rows_faulted_iff hperm.subset,
    h.lineWord_rows_faulted_iff (List.Subset.refl _)]
  simp only [hmnemonics]

end WellFormed

end Table

/-! ## Decoding -/

/-- **A decoder of some rows finds the row that the decoder of the whole table finds, if it is
    there.** -/
lemma Decoder.lookup_rows {table rows : Table} (h : ∀ form ∈ table, form.WellFormed)
    (told : ∀ form ∈ table, form.IsTold)
    (apart : ∀ f ∈ table, ∀ g ∈ table, f.canonical = true → g.canonical = true →
      f = g ∨ f.ToldApart g) (hrows : rows ⊆ table) {whole part : Decoder}
    (hwhole : ofTable table = .ok whole) (hpart : ofTable rows = .ok part) {w : Word}
    {form : Form} :
    part.lookup w.value = some form ↔ whole.lookup w.value = some form ∧ form ∈ rows := by
  rw [lookup_eq_some_iff h told apart hwhole,
    lookup_eq_some_iff (fun f hf => h f (hrows hf)) (fun f hf => told f (hrows hf))
      (fun f hf g hg => apart f (hrows hf) g (hrows hg)) hpart]
  constructor
  · rintro ⟨hm, hread⟩
    exact ⟨⟨hrows hm, hread⟩, hm⟩
  · rintro ⟨⟨-, hread⟩, hm⟩
    exact ⟨hm, hread⟩

/-- **A decoder of standard rows** writes a word as the standard one does if it has the row, and in
    digits otherwise. -/
lemma Decoder.decodeWord_rows {rows : Table} (hrows : rows ⊆ Table.standard) :
    ∃ decoder, ofTable rows = .ok decoder ∧ ∀ w, decoder.decodeWord w =
      .ok (if ∃ form ∈ standard.lookup w.value, form ∈ rows
        then (textOf w, standard.lookup w.value) else (w.hex, none)) := by
  obtain ⟨rules, hrules, -⟩ :=
    DecodingRule.ofTable_spec fun form hm => Table.standard_forms form (hrows hm)
  have hpart : ofTable rows = .ok (ofRules rules) := by
    rw [ofTable, hrules]
    rfl
  have hlookup : ∀ {w : Word} {form : Form}, (ofRules rules).lookup w.value = some form ↔
      standard.lookup w.value = some form ∧ form ∈ rows :=
    lookup_rows Table.standard_forms Table.standard_isTold Table.standard_toldApart hrows
      ofTable_standard hpart
  refine ⟨ofRules rules, hpart, fun w => ?_⟩
  split_ifs with hrow
  · obtain ⟨form, hform, hm⟩ := hrow
    have hfound := hlookup.mpr ⟨hform, hm⟩
    rw [← decodeWord_standard w, decodeWord, decodeWord, hfound, hform]
  · have hnone : (ofRules rules).lookup w.value = none := by
      rw [Option.eq_none_iff_forall_ne_some]
      intro form hform
      exact hrow ⟨form, (hlookup.mp hform).1, (hlookup.mp hform).2⟩
    rw [decodeWord, hnone]

/-- A permutation of the standard table has the row of every word that has one. -/
lemma Decoder.rows_perm {rows : Table} (hperm : rows.Perm Table.standard) (w : Word) :
    (if ∃ form ∈ standard.lookup w.value, form ∈ rows then (textOf w, standard.lookup w.value)
      else (w.hex, none)) = (textOf w, standard.lookup w.value) := by
  cases hlookup : standard.lookup w.value with
  | none => simp [(textOf_none hlookup).1]
  | some form =>
      have hm := (lookup_standard_iff.mp hlookup).1
      rw [if_pos ⟨form, rfl, hperm.mem_iff.mpr hm⟩]

/-! ## The standard table -/

/-- **Neither the order of the rows nor rows that are not used matter.**  A table of standard rows,
    in any order and as often as one likes, encodes exactly those lines that the standard table
    encodes as a raw word or by one of these rows, and as the same words; it decodes a word as the
    standard table does if that uses one of these rows, and as its digits otherwise.  A permutation
    of the standard table encodes the same lines, breaks off on the same lines and decodes all words
    alike. -/
theorem subtable_agrees {rows : Table} (hrows : ∀ form ∈ rows, form ∈ Table.standard) :
    (∀ source line address e, rows.encodeLine source line address = .ok e ↔
      Table.standard.encodeLine source line address = .ok e ∧
        (e.raw = true ∨ ∃ form ∈ Table.standard.row? source, form ∈ rows)) ∧
    (∃ decoder, Decoder.ofTable rows = .ok decoder ∧
      (∀ w : Word, ∃ text form?, Decoder.standard.decode w.value = .ok (text, form?) ∧
        decoder.decode w.value =
          .ok (if ∃ form ∈ form?, form ∈ rows then (text, form?) else (w.hex, none))) ∧
      (rows.Perm Table.standard →
        ∀ w : Word, decoder.decode w.value = Decoder.standard.decode w.value)) ∧
    (rows.Perm Table.standard → ∀ source line address,
      (∀ e, rows.encodeLine source line address = .ok e ↔
        Table.standard.encodeLine source line address = .ok e) ∧
      ∀ fault, rows.encodeLine source line address = .error (.faulted fault) ↔
        Table.standard.encodeLine source line address = .error (.faulted fault)) := by
  have hfit := Table.standard_wellFormed
  have hsub : rows ⊆ Table.standard := fun form hm => hrows form hm
  refine ⟨fun _ _ _ _ => hfit.encodeLine_rows_iff hsub, ?_, fun hperm _ _ _ =>
    ⟨fun _ => hfit.encodeLine_perm_iff hperm, fun _ => hfit.encodeLine_perm_faulted_iff hperm⟩⟩
  obtain ⟨decoder, hdecoder, hdecode⟩ := Decoder.decodeWord_rows hsub
  refine ⟨decoder, hdecoder, fun w => ?_, fun hperm w => ?_⟩
  · refine ⟨textOf w, Decoder.standard.lookup w.value, ?_, ?_⟩
    · rw [Decoder.decode_value, decodeWord_standard]
    · rw [Decoder.decode_value, hdecode]
  · rw [Decoder.decode_value, Decoder.decode_value, hdecode, decodeWord_standard,
      Decoder.rows_perm hperm]

/-- The two rows of `SE`, in both orders: `SE` is encoded by its row, and `ADD` is not encoded. -/
theorem subtable_agrees_skips :
    ∃ rows : Table, rows = Table.standard.named "SE" ++ (Table.standard.named "SE").reverse ∧
      (∀ form ∈ rows, form ∈ Table.standard) ∧
      rows.encodeLine "se v1,5" 1 0x200 = .ok ⟨1, 0x200, ⟨0x3105, by decide⟩, "se v1,5", false⟩ ∧
      ∀ e, rows.encodeLine "ADD V1, 5" 1 0x200 ≠ .ok e := by
  have hrows : ∀ form ∈ Table.standard.named "SE" ++ (Table.standard.named "SE").reverse,
      form ∈ Table.standard := by decide +kernel
  refine ⟨_, rfl, hrows, ?_, fun e he => ?_⟩
  · have hline : Table.standard.encodeLine "se v1,5" 1 0x200 =
        .ok ⟨1, 0x200, ⟨0x3105, by decide⟩, "se v1,5", false⟩ := rfl
    have hrow : Table.standard.row? "se v1,5" =
        some ⟨"SE", [Table.vx, Table.byte], "3xkk", "Skip next if Vx == kk", true, none⟩ := rfl
    exact ((subtable_agrees hrows).1 _ _ _ _).mpr ⟨hline, .inr ⟨_, hrow, by decide +kernel⟩⟩
  · have hrow : Table.standard.row? "ADD V1, 5" =
        some ⟨"ADD", [Table.vx, Table.byte], "7xkk", "Set Vx = Vx + kk", true, none⟩ := rfl
    obtain ⟨hwhole, hraw | ⟨form, hform, hm⟩⟩ := ((subtable_agrees hrows).1 _ _ _ _).mp he
    · cases hwhole
      cases hraw
    · rw [hrow] at hform
      cases hform
      exact absurd hm (by decide +kernel)

end Chip8
