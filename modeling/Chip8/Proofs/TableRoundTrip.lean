import Chip8.Proofs.Rendering
import Chip8.Proofs.StandardTable

/-!
# Assembling what was disassembled, for any fit table

A table is used in both directions: the assembler selects a row by mnemonic and operands, the
disassembler by bits.  If the table is fit, the text that the disassembler prints for a word is
assembled again, through the row it was printed from (`Table.WellFormed.lineWord_render`).  The
word that comes back is that of the printed row with the fields of the given one; it is the given
word itself exactly if that had all digits of the row.  A word that no row reads is printed as
its digits and comes back unchanged.

Nothing is assumed about the bits by which the disassembler tells the rows apart: they may
overlap, or look past digits that a row fixes.
-/

namespace Chip8

namespace Table.WellFormed

variable {table : Table}

lemma lineWord_writtenLine (h : table.WellFormed) {form : Form} (hm : form ∈ table)
    {texts : List String} {values : List (Field × Nat)} {u : Word}
    (htexts : ∀ t ∈ texts, IsCapitalWord t ∧ Convertible t) (hw : form.Writes texts values u) :
    table.lineWord (writtenLine form.mnemonic texts) = .ok (u, false) := by
  have hmnemonic := (h.forms form hm).mnemonic
  have htokens := tokens_writtenLine hmnemonic fun t ht => (htexts t ht).1
  have hknown : table.isMnemonic form.mnemonic = true :=
    isMnemonic_iff.mpr ⟨form, hm, hmnemonic.capitals.symm⟩
  have hclass := Classified.of_convertible fun t ht => (htexts t ht).2
  have hencode := h.encode_of_writes hclass hm hmnemonic.capitals.symm hw
  rw [lineWord_instruction htokens hknown, hencode]
  rfl

/-- **The text that a row prints for a word is assembled as the row with the fields of the
    word.** -/
theorem lineWord_render (h : table.WellFormed) {form : Form} (hm : form ∈ table) (w : Word) :
    ∃ texts u, form.renderOperands w.value = .ok texts ∧ (∀ t ∈ texts, IsCapitalWord t) ∧
      form.repack w = .ok u ∧
      table.lineWord (writtenLine form.mnemonic texts) = .ok (u, false) := by
  obtain ⟨texts, values, hrender, htexts, hspells, hvalues⟩ :=
    (h.forms form hm).renderOperands_spells w
  obtain ⟨u, hrepack, hfits, hextract⟩ := (h.forms form hm).regular.repack_spec w
  refine ⟨texts, u, hrender, fun t ht => (htexts t ht).1, hrepack, ?_⟩
  refine h.lineWord_writtenLine hm htexts ⟨hspells, fun q hq => (hvalues q hq).2, hfits, ?_⟩
  intro q hq
  rw [hextract]
  exact (hvalues q hq).1

/-- The decoder of a fit table finds only rows of the table. -/
lemma exists_decoder (h : table.WellFormed) :
    ∃ decoder, Decoder.ofTable table = .ok decoder ∧
      ∀ (w : Word) (form : Form), decoder.lookup w.value = some form → form ∈ table := by
  obtain ⟨rules, hrules, hspec⟩ := DecodingRule.ofTable_spec h.forms
  refine ⟨Decoder.ofRules rules, ?_, fun w form hlookup => ?_⟩
  · rw [Decoder.ofTable, hrules]
    rfl
  · obtain ⟨rule, hmem, rfl, -, -⟩ := Decoder.lookup_some hlookup
    obtain ⟨form, hm, -, hrule⟩ := (hspec rule).mp hmem
    rw [hrule.1]
    exact hm

end Table.WellFormed

lemma Decoder.decode_value (decoder : Decoder) (w : Word) :
    decoder.decode w.value = decoder.decodeWord w := by
  rw [decode, Word.ofInt_value]
  rfl

/-- **Assembler and disassembler of one fit table undo each other.**  Every word has a text.  If
    the text is that of a row, it is assembled as the row packed with the fields of the word, which
    is the word itself exactly if the word has all digits that the row fixes; if the text is the
    digits of the word, it is assembled as the word. -/
theorem encodeLine_decode {table : Table} (h : table.WellFormed) (w : Word) (line address : Int) :
    ∃ decoder text form?, Decoder.ofTable table = .ok decoder ∧
      decoder.decode w.value = .ok (text, form?) ∧
      match form? with
      | none => table.encodeLine text line address = .ok ⟨line, address, w, text, true⟩
      | some form => form ∈ table ∧ ∃ u, form.encode (form.fieldValues w) = .ok u ∧
          table.encodeLine text line address = .ok ⟨line, address, u, text, false⟩ ∧
          (u = w ↔ form.fits w.value = .ok true) := by
  obtain ⟨decoder, hdecoder, hmem⟩ := h.exists_decoder
  refine ⟨decoder, ?_⟩
  cases hlookup : decoder.lookup w.value with
  | none =>
      refine ⟨w.hex, none, hdecoder, ?_, ?_⟩
      · rw [decoder.decode_value, Decoder.decodeWord, hlookup]
      · simp only [Table.encodeLine, h.lineWord_hex w]
  | some form =>
      have hm := hmem w form hlookup
      obtain ⟨texts, u, hrender, -, hrepack, hline⟩ := h.lineWord_render hm w
      refine ⟨writtenLine form.mnemonic texts, some form, hdecoder, ?_, hm, u, hrepack, ?_, ?_⟩
      · rw [decoder.decode_value, Decoder.decodeWord, hlookup]
        simp only [Form.render_eq, hrender, Except.map]
      · simp only [Table.encodeLine, hline]
      · rw [← (h.forms form hm).regular.repack_eq_self_iff w, hrepack, Except.ok.injEq]

/-- The standard table is fit, and `0x5123` has a text although no row has its last digit. -/
theorem encodeLine_decode_skip :
    Table.standard.WellFormed ∧ ∃ decoder text form?,
      Decoder.ofTable Table.standard = .ok decoder ∧
      decoder.decode (0x5123 : Nat) = .ok (text, form?) ∧
      match form? with
      | none => Table.standard.encodeLine text 1 0x200 =
          .ok ⟨1, 0x200, ⟨0x5123, by decide⟩, text, true⟩
      | some form => form ∈ Table.standard ∧ ∃ u,
          form.encode (form.fieldValues ⟨0x5123, by decide⟩) = .ok u ∧
          Table.standard.encodeLine text 1 0x200 = .ok ⟨1, 0x200, u, text, false⟩ ∧
          (u = ⟨0x5123, by decide⟩ ↔ form.fits (0x5123 : Nat) = .ok true) :=
  ⟨Table.standard_wellFormed,
    encodeLine_decode Table.standard_wellFormed ⟨0x5123, by decide⟩ 1 0x200⟩

end Chip8
