import Chip8.Proofs.Rendering
import Chip8.Proofs.StandardTable

/-!
# The grammar of a line

Which lines are accepted, and as what word, is spread over the code that reads a line: blanks are
cut off its ends, separators cut it into tokens, the first token selects the rows, the others are
classified, matched, and checked against their fields, and what is no mnemonic may still be a raw
word.  `Table.Reads` is the grammar that comes out of it, in two clauses and without any order of
steps.

* `Table.WellFormed.lineWord_of_reads` and `Table.WellFormed.reads_of_lineWord` say that a fit
  table accepts this grammar, and `Table.WellFormed.lineWord_cases` that it rejects everything
  else, for reasons listed by `Table.Refuses`.
* `encodeLine_standard_iff` is the statement for the standard table.

The tokens are assumed to hold no more digits than a numeral may have; a longer numeral is not a
matter of the grammar, it breaks the run off.
-/

namespace Chip8

/-! ## Accepted and rejected lines -/

/-- **The grammar of a line.**  It is an instruction, whose operands write the word as some form of
    its mnemonic, or it is the word in hexadecimal, and its first token is no mnemonic. -/
inductive Table.Reads (table : Table) (source : String) (w : Word) : Bool → Prop
  | instruction {mnemonic : String} {given : List String} {form : Form}
      {values : List (Field × Nat)} : tokens source = mnemonic :: given → form ∈ table →
      form.mnemonic = Text.uppercase mnemonic → form.Writes given values w →
      Reads table source w false
  | raw {first : String} {rest : List String} : tokens source = first :: rest →
      table.isMnemonic first = false →
      (Text.strip source).toList.map Hex.value? = w.nibbles.map some → Reads table source w true

/-- **Why a line is rejected:** the operands, if it begins with a mnemonic, and the whole line
    otherwise. -/
def Table.Refuses (table : Table) (source : String) (cause : Cause) : Prop :=
  match tokens source with
  | [] => cause = .unencodable ""
  | first :: given =>
    if table.isMnemonic first then ∃ error, cause = .operands (Text.uppercase first) given error
    else cause = .unencodable (Text.strip source)

namespace Table.WellFormed

variable {table : Table} {source : String}

/-- **A line is read by the grammar, or it is rejected,** if the operands of a mnemonic can be
    classified. -/
lemma lineWord_cases (h : table.WellFormed) (once : ∀ form ∈ table, form.FillsOnce)
    (hclass : ∀ first given, tokens source = first :: given → table.isMnemonic first = true →
      Classified given) :
    (∃ w raw, table.Reads source w raw ∧ table.lineWord source = .ok (w, raw)) ∨
      ∃ cause, table.Refuses source cause ∧ table.lineWord source = .error (.rejected cause) := by
  rcases ht : tokens source with _ | ⟨first, given⟩
  · right
    refine ⟨.unencodable "", ?_, ?_⟩
    · rw [Refuses, ht]
    · rw [lineWord, ht]
  · cases hknown : table.isMnemonic first with
    | true =>
        rw [lineWord_instruction ht hknown]
        rcases h.encode_cases once (hclass first given ht hknown) hknown with
          ⟨form, hm, values, w, hn, hw, hencode⟩ | ⟨error, hencode⟩
        · left
          rw [hencode]
          exact ⟨w, false, .instruction ht hm hn hw, rfl⟩
        · right
          rw [hencode]
          refine ⟨.operands (Text.uppercase first) given error, ?_, rfl⟩
          simp only [Refuses, ht, hknown, if_true]
          exact ⟨error, rfl⟩
    | false =>
        rw [lineWord_raw ht hknown]
        cases hword : Word.ofHex (Text.strip source) with
        | ok w =>
            left
            exact ⟨w, true, .raw ht hknown (Word.ofHex_eq_ok_iff.mp hword), rfl⟩
        | error fault =>
            right
            refine ⟨.unencodable (Text.strip source), ?_, rfl⟩
            simp only [Refuses, ht, hknown, Bool.false_eq_true, if_false]

/-- **A line of the grammar is accepted** if its tokens are classified. -/
theorem lineWord_of_reads (h : table.WellFormed) (hclass : Classified (tokens source).tail)
    {w : Word} {raw : Bool} (hr : table.Reads source w raw) :
    table.lineWord source = .ok (w, raw) := by
  cases hr with
  | instruction ht hm hn hw =>
      rw [ht, List.tail_cons] at hclass
      have hknown := isMnemonic_iff.mpr ⟨_, hm, hn⟩
      rw [lineWord_instruction ht hknown, h.encode_of_writes hclass hm hn hw]
      rfl
  | raw ht hno hdigits => rw [lineWord_raw ht hno, Word.ofHex_eq_ok_iff.mpr hdigits]

lemma classified_of_encode {mnemonic : String} {given : List String} {w : Word}
    (hencode : table.encode mnemonic given = .ok w) : Classified given := by
  rw [encode] at hencode
  split at hencode
  · simp at hencode
  · obtain ⟨operands, hoperands, -⟩ := exists_of_bind_eq_ok hencode
    cases hclass : given.mapM Operand.classify with
    | ok operands => exact .of_ok hclass
    | error fault =>
        rw [hclass] at hoperands
        cases hoperands

/-- **A line that is accepted is one of the grammar,** whatever its tokens are. -/
theorem reads_of_lineWord (h : table.WellFormed) (once : ∀ form ∈ table, form.FillsOnce)
    {w : Word} {raw : Bool} (hline : table.lineWord source = .ok (w, raw)) :
    table.Reads source w raw := by
  have hclass : ∀ first given, tokens source = first :: given → table.isMnemonic first = true →
      Classified given := by
    intro first given ht hknown
    rw [lineWord_instruction ht hknown] at hline
    cases hencode : table.encode first given with
    | ok u => exact classified_of_encode hencode
    | error setback =>
        rw [hencode] at hline
        simp [Except.map] at hline
  rcases h.lineWord_cases once hclass with ⟨u, raw', hr, hu⟩ | ⟨cause, -, hcause⟩
  · rw [hline, Except.ok.injEq, Prod.mk.injEq] at hu
    rw [hu.1, hu.2]
    exact hr
  · rw [hline] at hcause
    simp at hcause

end Table.WellFormed

/-- **The lines that the standard table accepts are those of the grammar,** each with the word that
    the grammar has for it.  Every other line is rejected, with its number, its text and a cause:
    a complaint about the operands exactly if the line begins with a mnemonic. -/
theorem encodeLine_standard_iff {source : String}
    (hconv : ∀ token ∈ tokens source, Convertible token) (line address : Int) :
    (∀ e, Table.standard.encodeLine source line address = .ok e ↔
      ∃ w raw, Table.standard.Reads source w raw ∧ e = ⟨line, address, w, source, raw⟩) ∧
    ((∀ w raw, ¬ Table.standard.Reads source w raw) →
      ∃ cause, Table.standard.Refuses source cause ∧
        Table.standard.encodeLine source line address =
          .error (.rejected ⟨some line, some source, cause⟩)) := by
  have hfit := Table.standard_wellFormed
  have honce := Table.standard_fillsOnce
  have hclass : Classified (tokens source).tail :=
    .of_convertible fun token ht => hconv token (List.mem_of_mem_tail ht)
  have hgiven : ∀ first given, tokens source = first :: given →
      Table.standard.isMnemonic first = true → Classified given := by
    intro first given ht _
    rwa [ht, List.tail_cons] at hclass
  constructor
  · intro e
    constructor
    · intro he
      rw [Table.encodeLine] at he
      split at he
      · next w raw hline =>
          exact ⟨w, raw, hfit.reads_of_lineWord honce hline, (Except.ok.inj he).symm⟩
      · simp at he
    · rintro ⟨w, raw, hr, rfl⟩
      rw [Table.encodeLine, hfit.lineWord_of_reads hclass hr]
  · intro hno
    rcases hfit.lineWord_cases honce hgiven with ⟨w, raw, hr, -⟩ | ⟨cause, hc, hline⟩
    · exact absurd hr (hno w raw)
    · refine ⟨cause, hc, ?_⟩
      rw [Table.encodeLine, hline]
      rfl

/-- A sprite instruction in small letters, with a leading zero and mixed separators. -/
theorem encodeLine_standard_sprite :
    (∀ token ∈ tokens " drw v1,V02\t 5", Convertible token) ∧
      Table.standard.encodeLine " drw v1,V02\t 5" 7 0x200 =
        .ok ⟨7, 0x200, ⟨0xD125, by decide⟩, " drw v1,V02\t 5", false⟩ := by
  have hconv : ∀ token ∈ tokens " drw v1,V02\t 5", Convertible token := by decide
  refine ⟨hconv, ((encodeLine_standard_iff hconv 7 0x200).1 _).mpr ⟨_, _, ?_, rfl⟩⟩
  have ht : tokens " drw v1,V02\t 5" = ["drw", "v1", "V02", "5"] := by decide
  have hm : ⟨"DRW", [Table.vx, Table.vy, Table.nibble], "Dxyn", "Draw n-byte sprite at (Vx, Vy)",
      true, none⟩ ∈ Table.standard := by decide
  have hx : IsRegister "v1" 1 := ⟨'v', ['1'], rfl, rfl, rfl, rfl⟩
  have hy : IsRegister "V02" 2 := ⟨'V', ['0', '2'], rfl, rfl, rfl, rfl⟩
  have hn : IsLiteral "5" 5 := ⟨rfl, rfl⟩
  have hspelled : Spells [Table.vx, Table.vy, Table.nibble] ["v1", "V02", "5"]
      [(.x, 1), (.y, 2), (.n, 5)] :=
    .cons (.register hx) (.cons (.register hy) (.cons (.immediate hn) .nil))
  exact .instruction ht hm (by decide) ⟨hspelled, by decide, rfl, by decide⟩

end Chip8
