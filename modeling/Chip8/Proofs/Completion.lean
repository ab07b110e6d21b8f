import Chip8.Proofs.LineGrammar
import Chip8.Proofs.Runs
import Chip8.Proofs.WordTexts

/-!
# Which runs come to an end

A line that cannot be encoded is dropped, and the run goes on.  There is one exception: an
instruction with an operand that is a numeral of more digits than are ever converted, by itself or
as the index of a register (`Table.BreaksOff`).  Such a line is not dropped, it breaks the run off,
and the lines behind it are lost, good or bad.

* `Table.WellFormed.lineWord_judged` says that there is no other: on a fit table every step after
  the classification of the operands ends in a word or in a rejection.
* `Table.WellFormed.completes_iff` goes from lines to runs, and `code_of_completed` and
  `rejections_of_completed` say what a run has that comes to its end.
* `assemble_standard_completes` puts them together for the standard table.  A run that comes to its
  end has the words of all lines that have one, whatever is between them, and a record for each of
  the others.

`assemble_overlong_literal` is a source that is not assembled to its end.
-/

namespace Chip8

/-! ## Lines that break a run off -/

/-- **A line that breaks a run off:** an instruction with an overlong operand. -/
def Table.BreaksOff (table : Table) (source : String) : Prop :=
  ∃ mnemonic given, tokens source = mnemonic :: given ∧ table.isMnemonic mnemonic = true ∧
    ∃ token ∈ given, ∃ digits, Overlong token digits

namespace Table

variable {table : Table} {source : String}

/-- The operands are classified before anything else is done with them. -/
lemma encode_faulted {mnemonic : String} {given : List String} {fault : Fault}
    (hknown : table.isMnemonic mnemonic = true)
    (h : given.mapM Operand.classify = .error fault) :
    table.encode mnemonic given = .error (.faulted fault) := by
  rw [encode]
  split
  · next hnil =>
      rw [isMnemonic, hnil] at hknown
      cases hknown
  · rw [h]
    rfl

/-- **A line that breaks the run off does so for the length of a numeral,** on every table. -/
lemma BreaksOff.lineWord_eq (h : table.BreaksOff source) :
    ∃ digits, Numeral.maxDigits < digits ∧
      table.lineWord source = .error (.faulted (.overlongNumeral digits)) := by
  obtain ⟨mnemonic, given, ht, hknown, token, hmem, digits, hlong⟩ := h
  cases hclass : given.mapM Operand.classify with
  | ok operands =>
      exact absurd hlong (classified_iff.mp (.of_ok hclass) token hmem digits)
  | error fault =>
      obtain ⟨-, -, first, ⟨-, -, -, hlen, -⟩, rfl⟩ := exists_of_mapM_classify hclass
      refine ⟨first, hlen, ?_⟩
      rw [lineWord_instruction ht hknown, encode_faulted hknown hclass]
      rfl

/-- **Any other line has a word or is rejected,** on a fit table. -/
lemma WellFormed.lineWord_judged (h : table.WellFormed)
    (once : ∀ form ∈ table, form.FillsOnce) (hline : ¬ table.BreaksOff source) :
    (∃ w raw, table.lineWord source = .ok (w, raw)) ∨
      ∃ cause, table.lineWord source = .error (.rejected cause) := by
  have hclass : ∀ first given, tokens source = first :: given → table.isMnemonic first = true →
      Classified given := by
    intro first given ht hknown
    refine classified_iff.mpr fun token hmem digits hlong => ?_
    exact hline ⟨first, given, ht, hknown, token, hmem, digits, hlong⟩
  rcases h.lineWord_cases once hclass with ⟨w, raw, -, hw⟩ | ⟨cause, -, hcause⟩
  · exact .inl ⟨w, raw, hw⟩
  · exact .inr ⟨cause, hcause⟩

/-- **Nothing but an overlong operand breaks a run off,** on a fit table. -/
lemma WellFormed.lineWord_faulted (h : table.WellFormed) (once : ∀ form ∈ table, form.FillsOnce)
    {fault : Fault} (hfault : table.lineWord source = .error (.faulted fault)) :
    table.BreaksOff source ∧ ∃ digits, Numeral.maxDigits < digits ∧
      fault = .overlongNumeral digits := by
  have hbreaks : table.BreaksOff source := by
    by_contra hline
    rcases h.lineWord_judged once hline with ⟨w, raw, hw⟩ | ⟨cause, hcause⟩
    · rw [hfault] at hw
      cases hw
    · rw [hfault] at hcause
      cases hcause
  obtain ⟨digits, hlen, heq⟩ := hbreaks.lineWord_eq
  rw [hfault] at heq
  cases heq
  exact ⟨hbreaks, digits, hlen, rfl⟩

/-- **What a line puts into the image:** its word, if it has one. -/
def lineBytes (table : Table) (source : String) : List UInt8 :=
  match table.lineWord source with
  | .ok (w, _) => w.bytes
  | .error _ => []

/-- **The record that a line leaves,** if it is dropped. -/
def rejection? (table : Table) (line : String × Nat) : Option Rejection :=
  match table.lineWord line.1 with
  | .error (.rejected cause) =>
    if Text.isBlankLine line.1 then none else some ⟨some line.2, some line.1, cause⟩
  | _ => none

end Table

/-! ## Runs that come to an end -/

section Completed

variable {table : Table} {address : Int} {lines : List (String × Nat)}

/-- **A run comes to an end exactly if no line breaks it off.** -/
theorem Table.WellFormed.completes_iff (h : table.WellFormed)
    (once : ∀ form ∈ table, form.FillsOnce) :
    (assembleLines table address lines).fault = none ↔
      ∀ line ∈ lines.map Prod.fst, ¬ table.BreaksOff line := by
  rw [fault_eq_none_iff, List.forall_mem_map]
  constructor
  · intro hnone line hmem hbreaks
    obtain ⟨digits, -, hfault⟩ := hbreaks.lineWord_eq
    exact hnone line hmem _ hfault
  · intro hno line hmem fault hfault
    exact hno line hmem (h.lineWord_faulted once hfault).1

/-- **A run that comes to its end has the words of all its lines,** in their order. -/
theorem code_of_completed (h : (assembleLines table address lines).fault = none) :
    (assembleLines table address lines).code = (lines.map Prod.fst).flatMap table.lineBytes := by
  fun_induction assembleLines table address lines with
  | case1 address => rfl
  | case2 address source number rest hblank ih =>
      have hbytes : table.lineBytes source = [] := by
        rw [Table.lineBytes, Table.lineWord_blank hblank]
      rw [List.map_cons, List.flatMap_cons, hbytes, List.nil_append, ih h]
  | case3 address source number rest hblank line hline ih =>
      have hbytes : table.lineBytes source = line.word.bytes := by
        rw [Table.lineBytes, (Table.encodeLine_eq_ok_iff.mp hline).1]
      rw [Run.code_cons_encoded, List.map_cons, List.flatMap_cons, hbytes, ih h]
  | case4 address source number rest hblank rejection hline ih =>
      obtain ⟨cause, hcause, -⟩ := Table.encodeLine_eq_rejected_iff.mp hline
      have hbytes : table.lineBytes source = [] := by rw [Table.lineBytes, hcause]
      rw [Run.code_cons_dropped, List.map_cons, List.flatMap_cons, hbytes, List.nil_append, ih h]
  | case5 address source number rest hblank fault hline => cases h

/-- **A run that comes to its end has a record for each line that is dropped,** in their order. -/
theorem rejections_of_completed (h : (assembleLines table address lines).fault = none) :
    (assembleLines table address lines).rejections = lines.filterMap table.rejection? := by
  fun_induction assembleLines table address lines with
  | case1 address => rfl
  | case2 address source number rest hblank ih =>
      have hnone : table.rejection? (source, number) = none := by
        rw [Table.rejection?, Table.lineWord_blank hblank]
        exact if_pos hblank
      rw [List.filterMap_cons_none hnone, ih h]
  | case3 address source number rest hblank line hline ih =>
      have hnone : table.rejection? (source, number) = none := by
        rw [Table.rejection?, (Table.encodeLine_eq_ok_iff.mp hline).1]
      rw [Run.rejections_cons_encoded, List.filterMap_cons_none hnone, ih h]
  | case4 address source number rest hblank rejection hline ih =>
      obtain ⟨cause, hcause, rfl⟩ := Table.encodeLine_eq_rejected_iff.mp hline
      have hsome : table.rejection? (source, number) =
          some ⟨some number, some source, cause⟩ := by
        rw [Table.rejection?, hcause]
        exact if_neg hblank
      rw [Run.rejections_cons_dropped, List.filterMap_cons_some hsome, ih h]
  | case5 address source number rest hblank fault hline => cases h

end Completed

/-- **Every line is judged but one with an overlong operand,** and a run comes to its end unless
    there is one.  It then has the words of all lines that have one, whatever lines are between
    them, and a record for each of the other lines that are not blank. -/
theorem assemble_standard_completes (load : Int) (source : String) :
    (∀ line, ¬ Table.standard.BreaksOff line → ∀ number address,
      (∃ e, Table.standard.encodeLine line number address = .ok e) ∨
        ∃ r, Table.standard.encodeLine line number address = .error (.rejected r)) ∧
    ∃ run, assemble Table.standard load source = run ∧
      (run.fault = none ↔ ∀ line ∈ Text.lines source, ¬ Table.standard.BreaksOff line) ∧
      (∀ fault, run.fault = some fault →
        ∃ digits, Numeral.maxDigits < digits ∧ fault = .overlongNumeral digits) ∧
      (run.fault = none →
        run.code = (Text.lines source).flatMap Table.standard.lineBytes ∧
        run.rejections = ((Text.lines source).zipIdx 1).filterMap Table.standard.rejection?) := by
  have hfit := Table.standard_wellFormed
  have honce := Table.standard_fillsOnce
  have hlines : ((Text.lines source).zipIdx 1).map Prod.fst = Text.lines source :=
    List.zipIdx_map_fst 1 _
  refine ⟨fun line hline number address => ?_, _, rfl, ?_, fun fault hfault => ?_, fun hnone => ?_⟩
  · rcases hfit.lineWord_judged honce hline with ⟨w, raw, hw⟩ | ⟨cause, hcause⟩
    · exact .inl ⟨⟨number, address, w, line, raw⟩,
        Table.encodeLine_eq_ok_iff.mpr ⟨hw, rfl, rfl, rfl⟩⟩
    · exact .inr ⟨_, Table.encodeLine_eq_rejected_iff.mpr ⟨cause, hcause, rfl⟩⟩
  · rw [assemble, hfit.completes_iff honce, hlines]
  · obtain ⟨-, line, -, -, hline, -⟩ := exists_of_fault hfault
    exact (hfit.lineWord_faulted honce hline).2
  · refine ⟨?_, rejections_of_completed hnone⟩
    rw [assemble, code_of_completed hnone, hlines]

lemma isCapitalWord_numeral {cs : List Char} (h : Numeral.isNumeral cs = true) :
    IsCapitalWord (String.ofList cs) := by
  obtain ⟨hne, hdigits⟩ := Numeral.isNumeral_iff.mp h
  rw [IsCapitalWord, String.toList_ofList]
  exact ⟨hne, fun c hc => by rw [hdigits c hc, Bool.or_true]⟩

/-- **A line with one digit too many.** -/
lemma breaksOff_overlong {digits : List Char} (hnumeral : Numeral.isNumeral digits = true)
    (hlen : Numeral.maxDigits < digits.length) {line : String}
    (hline : line = "LD V0, " ++ String.ofList digits) :
    Text.IsPlainLine line.toList ∧ Text.isBlankLine line = false ∧
      Table.standard.BreaksOff line := by
  -- It is a line that could have been printed, so that its tokens are known.
  have hwritten : line = writtenLine "LD" ["V0", String.ofList digits] := by
    rw [hline, ← String.toList_inj]
    simp [toList_writtenLine, behind]
  have hwords : ∀ t ∈ ["V0", String.ofList digits], IsCapitalWord t :=
    List.forall_mem_cons.mpr
      ⟨by decide, List.forall_mem_singleton.mpr (isCapitalWord_numeral hnumeral)⟩
  have hlong : Overlong (String.ofList digits) digits.length :=
    ⟨digits, hnumeral, rfl, hlen, .inl String.toList_ofList⟩
  obtain ⟨hplain, hblank⟩ := writtenLine_plain (by decide : IsCapitalWord "LD") hwords
  rw [hwritten]
  exact ⟨hplain, hblank, "LD", _, tokens_writtenLine (by decide) hwords, by decide, _,
    List.mem_cons_of_mem _ List.mem_cons_self, _, hlong⟩

/-- One digit more than are ever converted. -/
lemma overlong_ones : Numeral.isNumeral (List.replicate 4301 '1') = true ∧
    Numeral.maxDigits < (List.replicate 4301 '1').length := by
  have hlen : (List.replicate 4301 '1').length = 4301 := List.length_replicate
  refine ⟨Numeral.isNumeral_iff.mpr ⟨List.ne_nil_of_length_eq_add_one hlen, fun c hc => ?_⟩, ?_⟩
  · rw [List.eq_of_mem_replicate hc]
    rfl
  · rw [hlen]
    decide

/-- **A line that is dropped in front of such a line** is recorded before the run is broken off. -/
lemma assemble_dropped_overlong {digits : List Char} (hnumeral : Numeral.isNumeral digits = true)
    (hlen : Numeral.maxDigits < digits.length) (load : Int) :
    ∃ run, assemble Table.standard load ("FOO\nLD V0, " ++ String.ofList digits) = run ∧
      run.hasErrors = true ∧ run.fault ≠ none := by
  obtain ⟨line, hline⟩ : ∃ line, line = "LD V0, " ++ String.ofList digits := ⟨_, rfl⟩
  obtain ⟨hplain, hblank, hbreaks⟩ := breaksOff_overlong hnumeral hlen hline
  have hfirst : Text.IsPlainLine "FOO".toList :=
    (writtenLine_plain (by decide : IsCapitalWord "FOO") (List.forall_mem_nil _)).1
  have hsource : "FOO\nLD V0, " ++ String.ofList digits = "\n".intercalate ["FOO", line] := by
    rw [hline, ← String.toList_inj]
    simp
  have hlines : Text.lines ("\n".intercalate ["FOO", line]) = ["FOO", line] :=
    Text.lines_intercalate
      (List.forall_mem_cons.mpr ⟨hfirst, List.forall_mem_singleton.mpr hplain⟩)
  obtain ⟨rejection, hdropped⟩ : ∃ rejection,
      Table.standard.encodeLine "FOO" 1 load = .error (.rejected rejection) := ⟨_, rfl⟩
  obtain ⟨count, -, hfault⟩ := hbreaks.lineWord_eq
  refine ⟨_, rfl, ?_⟩
  rw [hsource, assemble, hlines, List.zipIdx_cons, assembleLines_dropped _ (by decide) hdropped,
    List.zipIdx_cons, assembleLines_faulted _ (Bool.eq_false_iff.mp hblank)
      (Table.encodeLine_eq_faulted_iff.mpr hfault)]
  exact ⟨rfl, Option.some_ne_none _⟩

/-- One digit too many: the line is not dropped, and the good line behind it is lost with it. -/
theorem assemble_overlong_literal :
    ∃ run, assemble Table.standard 0x200
        ("LD V0, " ++ String.ofList (List.replicate 4301 '1') ++ "\nCLS") = run ∧
      run.fault ≠ none ∧ run.code = [] ∧ Table.standard.lineBytes "CLS" = [0x00, 0xE0] := by
  obtain ⟨hnumeral, hlen⟩ := overlong_ones
  generalize List.replicate 4301 '1' = digits at hlen hnumeral
  obtain ⟨line, hline⟩ : ∃ line, line = "LD V0, " ++ String.ofList digits := ⟨_, rfl⟩
  obtain ⟨hplain, hblank, hbreaks⟩ := breaksOff_overlong hnumeral hlen hline
  have hnext : Text.IsPlainLine "CLS".toList :=
    (writtenLine_plain (by decide : IsCapitalWord "CLS") (List.forall_mem_nil _)).1
  have hsource : "LD V0, " ++ String.ofList digits ++ "\nCLS" = "\n".intercalate [line, "CLS"] := by
    rw [← hline, ← String.toList_inj]
    simp
  have hlines : Text.lines ("\n".intercalate [line, "CLS"]) = [line, "CLS"] :=
    Text.lines_intercalate
      (List.forall_mem_cons.mpr ⟨hplain, List.forall_mem_singleton.mpr hnext⟩)
  obtain ⟨count, -, hfault⟩ := hbreaks.lineWord_eq
  refine ⟨_, rfl, ?_⟩
  rw [hsource, assemble, hlines, List.zipIdx_cons, assembleLines_faulted _
    (Bool.eq_false_iff.mp hblank) (Table.encodeLine_eq_faulted_iff.mpr hfault)]
  exact ⟨Option.some_ne_none _, rfl, by decide⟩

end Chip8
