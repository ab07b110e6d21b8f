import Chip8.Proofs.LineGrammar
import Chip8.Proofs.RomRoundTrip
import Chip8.Proofs.Runs

/-!
# Disassembling an assembled source

A source may be written in many ways: in either case, with any separators, with leading zeros,
with the short form of a shift.  Assembling it and disassembling the image leaves the accepted
lines, each in one normal form (`normalLine`).

* `exists_printed` finds, for the form through which a line was accepted, the printed form of the
  same word; they differ only for the short shifts.
* `textOf_of_reads` says that the word of an accepted line is printed as the line in normal form,
  `canonical_of_reads` that the word of an instruction is canonical.
* `assembleLines_accepted` says which lines of a source a run accepts, by induction over the lines.
* `disassembly_of_assembly` puts them together with the sweep over the image.
-/

namespace Chip8

/-! ## The normal form of a line -/

/-- **An operand token in normal form:** registers and literals in decimal without leading zeros,
    keywords in capitals. -/
def normalToken (token : String) : String := (Operand.shape token).normal

/-- The operands of a mnemonic, with the register that a short shift leaves out. -/
def fullOperands (mnemonic : String) (operands : List String) : List String :=
  if (mnemonic = "SHR" ∨ mnemonic = "SHL") ∧ operands.length = 1 then operands ++ ["V0"]
  else operands

/-- **An accepted line in normal form.**  An instruction is written with its mnemonic in capitals
    and its operands in normal form, a raw word as the text that is printed for it. -/
def normalLine (source : String) : String :=
  match tokens source with
  | [] => ""
  | first :: given =>
    if Table.standard.isMnemonic first then
      writtenLine (Text.uppercase first) (fullOperands (Text.uppercase first)
        (given.map normalToken))
    else
      match Word.ofHex (Text.strip source) with
      | .ok w => textOf w
      | .error _ => ""

lemma normalToken_fullOperands (mnemonic : String) (given : List String) :
    (fullOperands mnemonic given).map normalToken =
      fullOperands mnemonic (given.map normalToken) := by
  have hV0 : normalToken "V0" = "V0" := by decide
  simp only [fullOperands, List.length_map]
  split_ifs
  · rw [List.map_append, List.map_singleton, hV0]
  · rfl

/-! ## The printed form of an accepted line -/

lemma Spells.length_eq {slots : List Slot} {given : List String} {values : List (Field × Nat)}
    (h : Spells slots given values) : given.length = slots.length := by
  induction h with
  | nil => rfl
  | cons _ _ ih => rw [List.length_cons, List.length_cons, ih]

/-- A shift without its second register writes the same word as the shift with `V0`. -/
lemma writes_of_short {short full : Form} (low : Nat) (hlow : low < 16)
    (hslots : short.slots = [.register .x]) (hfull : full.slots = [.register .x, .register .y])
    (hbits : short.bits? = some (0x8000 + low, 0xF0FF, 0xF0FF))
    (hbits' : full.bits? = some (0x8000 + low, 0xF00F, 0xF00F))
    (hlayout : short.layout = [(.x, ⟨8, 4⟩)])
    (hlayout' : full.layout = [(.x, ⟨8, 4⟩), (.y, ⟨4, 4⟩)])
    {given : List String} {values : List (Field × Nat)} {w : Word}
    (hw : short.Writes given values w) :
    ∃ values', full.Writes (given ++ ["V0"]) values' w := by
  obtain ⟨hspelled, hwithin, hdigits, hplaced⟩ := hw
  have hV0 : IsRegister "V0" 0 := ⟨'V', ['0'], rfl, rfl, rfl, rfl⟩
  have hlt := w.value_lt
  rw [Form.fits_iff hbits, and_lead_byte hlt] at hdigits
  rw [hslots] at hspelled
  cases hspelled with
  | @cons _ token value _ _ _ hs hrest =>
      cases hrest
      cases hs with
      | @register field _ index hr =>
          have hx := hplaced (.x, index) List.mem_cons_self
          have hxlimit := hwithin (.x, index) List.mem_cons_self
          rw [Form.extract, hlayout, List.map_singleton, List.mem_singleton] at hx
          refine ⟨[(.x, index), (.y, 0)], ?_, ?_, ?_, ?_⟩
          · rw [hfull]
            exact .cons (.register hr) (.cons (.register hV0) .nil)
          · rw [List.forall_mem_cons, List.forall_mem_singleton]
            exact ⟨hxlimit, Nat.zero_le _⟩
          · rw [Form.fits_iff hbits', and_lead_nibble hlt]
            omega
          · rw [List.forall_mem_cons, List.forall_mem_singleton, Form.extract, hlayout', hx]
            -- The short row fixes the low byte, and with it the third nibble, at a number below 16.
            have hy : Form.extractSpan w.value ⟨4, 4⟩ = 0 := by
              rw [Form.extractSpan_natCast]
              simp only
              omega
            simp only [List.map_cons, List.map_nil, hy]
            exact ⟨List.mem_cons_self, List.mem_cons_of_mem _ List.mem_cons_self⟩

namespace Table

lemma standard_short : standard.filter (!·.canonical) =
    [⟨"SHR", [vx], "8x06", "Set Vx = Vx SHR 1", false, none⟩,
      ⟨"SHL", [vx], "8x0E", "Set Vx = Vx SHL 1", false, none⟩] := by decide

/-- A printed row with one operand is no shift. -/
lemma standard_single : ∀ form ∈ standard, form.canonical = true →
    ¬ ((form.mnemonic = "SHR" ∨ form.mnemonic = "SHL") ∧ form.slots.length = 1) := by
  decide +kernel

end Table

/-- **What a row writes, a printed row writes with all operands.** -/
lemma exists_printed {form : Form} (hm : form ∈ Table.standard) {given : List String}
    {values : List (Field × Nat)} {w : Word} (hw : form.Writes given values w) :
    ∃ printed ∈ Table.standard, printed.canonical = true ∧ printed.mnemonic = form.mnemonic ∧
      ∃ values', printed.Writes (fullOperands form.mnemonic given) values' w := by
  have hlength := hw.spelled.length_eq
  cases hc : form.canonical with
  | true =>
      have hsingle := Table.standard_single form hm hc
      rw [← hlength] at hsingle
      refine ⟨form, hm, hc, rfl, values, ?_⟩
      rw [fullOperands, if_neg hsingle]
      exact hw
  | false =>
      have hfilter : form ∈ Table.standard.filter (!·.canonical) :=
        List.mem_filter.mpr ⟨hm, by simp [hc]⟩
      rw [Table.standard_short] at hfilter
      simp only [List.mem_cons, List.not_mem_nil, or_false] at hfilter
      rcases hfilter with rfl | rfl
      · refine ⟨⟨"SHR", [Table.vx, Table.vy], "8xy6", "Set Vx = Vx SHR 1", true, none⟩, by decide,
          rfl, rfl, ?_⟩
        rw [fullOperands, if_pos ⟨Or.inl rfl, hlength⟩]
        exact writes_of_short 6 (by decide) rfl rfl rfl rfl rfl rfl hw
      · refine ⟨⟨"SHL", [Table.vx, Table.vy], "8xyE", "Set Vx = Vx SHL 1", true, none⟩, by decide,
          rfl, rfl, ?_⟩
        rw [fullOperands, if_pos ⟨Or.inr rfl, hlength⟩]
        exact writes_of_short 14 (by decide) rfl rfl rfl rfl rfl rfl hw

lemma textOf_of_writes {form : Form} (hm : form ∈ Table.standard) (hc : form.canonical = true)
    {given : List String} {values : List (Field × Nat)} {w : Word}
    (hw : form.Writes given values w) :
    textOf w = writtenLine form.mnemonic (given.map normalToken) ∧ w.canonical = w := by
  have hform := Table.standard_forms form hm
  have hlookup : Decoder.standard.lookup w.value = some form :=
    Decoder.lookup_standard_iff.mpr
      ⟨hm, hc, (Table.standard_isTold form hm).matchesCode_of_fits hw.digits⟩
  obtain ⟨texts, hrender, -, htext, -⟩ := textOf_some hlookup
  rw [hw.renderOperands_eq hform, Except.ok.injEq] at hrender
  have hrepack := repack_eq_canonical hlookup
  rw [(hform.regular.repack_eq_self_iff w).mpr hw.digits, Except.ok.injEq] at hrepack
  refine ⟨?_, hrepack.symm⟩
  rw [htext, ← hrender]
  rfl

/-- **The word of an accepted line is printed as the line in normal form.** -/
theorem textOf_of_reads {source : String} {w : Word} {raw : Bool}
    (h : Table.standard.Reads source w raw) : textOf w = normalLine source := by
  cases h with
  | instruction ht hm hn hw =>
      obtain ⟨printed, hp, hc, hname, values', hw'⟩ := exists_printed hm hw
      have hknown := Table.isMnemonic_iff.mpr ⟨_, hm, hn⟩
      simp only [normalLine, ht, hknown, if_true]
      rw [(textOf_of_writes hp hc hw').1, hname, normalToken_fullOperands, hn]
  | raw ht hno hdigits =>
      simp only [normalLine, ht, hno, Bool.false_eq_true, if_false,
        Word.ofHex_eq_ok_iff.mpr hdigits]

lemma canonical_of_reads {source : String} {w : Word} (h : Table.standard.Reads source w false) :
    w.canonical = w := by
  cases h with
  | instruction ht hm hn hw =>
      obtain ⟨printed, hp, hc, -, values', hw'⟩ := exists_printed hm hw
      exact (textOf_of_writes hp hc hw').2

/-! ## The accepted lines of a source -/

/-- Whether a line is accepted. -/
def isAccepted (source : String) : Bool :=
  match Table.standard.lineWord source with
  | .ok _ => true
  | .error _ => false

/-- **A run that is not broken off encodes the accepted lines,** each as the word it is read as. -/
theorem assembleLines_accepted {lines : List (String × Nat)} {address : Int}
    (h : (assembleLines Table.standard address lines).fault = none) :
    (assembleLines Table.standard address lines).instructions.map (·.source) =
        (lines.map Prod.fst).filter isAccepted ∧
      ∀ e ∈ (assembleLines Table.standard address lines).instructions,
        Table.standard.lineWord e.source = .ok (e.word, e.raw) := by
  induction lines generalizing address with
  | nil => exact ⟨rfl, by simp [assembleLines, Run.instructions]⟩
  | cons line rest ih =>
      obtain ⟨source, number⟩ := line
      rw [assembleLines] at h ⊢
      rw [List.map_cons, List.filter_cons, isAccepted]
      by_cases hblank : Text.isBlankLine source = true
      · rw [if_pos hblank] at h ⊢
        rw [Table.lineWord_blank hblank, if_neg Bool.false_ne_true]
        exact ih h
      · rw [if_neg hblank, Table.encodeLine] at h ⊢
        cases hline : Table.standard.lineWord source with
        | ok result =>
            obtain ⟨w, raw⟩ := result
            rw [hline] at h
            obtain ⟨hsources, hwords⟩ := ih h
            simp only [Run.instructions_cons_encoded, List.map_cons, hsources, if_true]
            exact ⟨trivial, List.forall_mem_cons.mpr ⟨hline, hwords⟩⟩
        | error setback =>
            rw [hline] at h
            cases setback with
            | rejected cause => exact ih h
            | faulted fault => simp [Setback.map] at h

/-! ## Disassembling an assembled source -/

section Source

variable {load : Int} {source : String}
  (h : (assemble Table.standard load source).fault = none)
include h

lemma sources_assemble : (assemble Table.standard load source).instructions.map (·.source) =
    (Text.lines source).filter isAccepted := by
  have hlines : ((Text.lines source).zipIdx 1).map Prod.fst = Text.lines source :=
    List.zipIdx_map_fst _ _
  rw [assemble, (assembleLines_accepted h).1, hlines]

lemma reads_assemble : ∀ e ∈ (assemble Table.standard load source).instructions,
    Table.standard.Reads e.source e.word e.raw := by
  intro e he
  have hline := (assembleLines_accepted h).2 e he
  exact Table.standard_wellFormed.reads_of_lineWord Table.standard_fillsOnce hline

/-- **The words of a run are printed as its accepted lines in normal form.** -/
lemma texts_assemble :
    ((assemble Table.standard load source).instructions.map (·.word)).map textOf =
      ((Text.lines source).filter isAccepted).map normalLine := by
  rw [← sources_assemble h, List.map_map, List.map_map]
  exact List.map_congr_left fun e he => textOf_of_reads (reads_assemble h e he)

lemma canonical_assemble
    (hraw : ∀ e ∈ (assemble Table.standard load source).instructions, e.raw = false) :
    ((assemble Table.standard load source).instructions.map (·.word)).map Word.canonical =
      (assemble Table.standard load source).instructions.map (·.word) := by
  rw [List.map_map]
  refine List.map_congr_left fun e he => ?_
  have hr := reads_assemble h e he
  rw [hraw e he] at hr
  exact canonical_of_reads hr

/-- A run has no more words than its source has characters. -/
lemma length_instructions_le :
    (assemble Table.standard load source).instructions.length ≤ source.length := by
  have hlines := Text.length_splitLines_le source.toList
  rw [String.length_toList] at hlines
  calc (assemble Table.standard load source).instructions.length
      = ((Text.lines source).filter isAccepted).length := by
        rw [← sources_assemble h, List.length_map]
    _ ≤ (Text.lines source).length := List.length_filter_le _ _
    _ ≤ source.length := by rwa [Text.lines, List.length_map]

end Source

/-- **Disassembling an assembled source gives its accepted lines in normal form,** in their order.
    If no accepted line is a raw word, assembling the text again gives the same image.

    The settings are the usual ones.  The bound is that of the addresses that can be printed; a
    source beyond it would have to hold some `10 ^ 4300` characters. -/
theorem disassembly_of_assembly {source : String}
    (hrun : (assemble Table.standard ({} : Settings).loadAddress source).fault = none)
    (hsize : 0x200 + 2 * source.length ≤ 10 ^ Numeral.maxDigits) :
    ∃ run words, assemble Table.standard ({} : Settings).loadAddress source = run ∧
      Decoder.standard.sweep ({} : Settings).loadAddress run.code = { words := words } ∧
      disassemblyText words =
        "\n".intercalate (((Text.lines source).filter isAccepted).map normalLine) ∧
      ((∀ e ∈ run.instructions, e.raw = false) →
        ∃ again, assemble Table.standard ({} : Settings).loadAddress (disassemblyText words) =
            again ∧ again.fault = none ∧ again.diagnostics = [] ∧ again.code = run.code) := by
  have hcount := length_instructions_le hrun
  have htexts := texts_assemble hrun
  have hcanonical := canonical_assemble hrun
  set run := assemble Table.standard ({} : Settings).loadAddress source
  set ws := run.instructions.map (·.word) with hws
  have hcode : run.code = ws.flatMap Word.bytes := by rw [Run.code, hws, List.flatMap_map]
  have hwords : wordsOf run.code = ws := by rw [hcode, wordsOf_bytes]
  have hprint : ∀ k < (wordsOf run.code).length,
      Numeral.isPrintable (({} : Settings).loadAddress + 2 * k) = true := by
    intro k hk
    rw [hwords, hws, List.length_map] at hk
    have hlt : 0x200 + 2 * k < 10 ^ Numeral.maxDigits := by omega
    exact (Numeral.fitsIn_iff _ _).mpr hlt
  refine ⟨run, readings ({} : Settings).loadAddress ws, rfl, ?_, ?_, fun hraw => ?_⟩
  · rw [Decoder.sweep_of_even _ (by decide), sweepFrom_eq hprint, hwords]
  · rw [disassemblyText_readings, htexts]
  · obtain ⟨again, hagain, hfault, hrejections, -, hagaincode⟩ :=
      assemble_texts ({} : Settings).loadAddress ws
    refine ⟨again, ?_, hfault, ?_, ?_⟩
    · rw [disassemblyText_readings, hagain]
    · rw [Run.diagnostics, hrejections, List.map_nil]
    · rw [hagaincode, hcanonical hraw, hcode]

/-- A short shift, a line that is dropped and a load, in a free spelling. -/
theorem disassembly_of_assembly_shift :
    (assemble Table.standard ({} : Settings).loadAddress "shr v01\nmov v1\n ld i,300").fault = none ∧
      0x200 + 2 * "shr v01\nmov v1\n ld i,300".length ≤ 10 ^ Numeral.maxDigits ∧
      ∃ run words, assemble Table.standard ({} : Settings).loadAddress
          "shr v01\nmov v1\n ld i,300" = run ∧
        Decoder.standard.sweep ({} : Settings).loadAddress run.code = { words := words } ∧
        disassemblyText words = "SHR V1, V0\nLD I, 300" := by
  have hrun : (assemble Table.standard ({} : Settings).loadAddress
      "shr v01\nmov v1\n ld i,300").fault = none := by decide +kernel
  have hsize : 0x200 + 2 * "shr v01\nmov v1\n ld i,300".length ≤ 10 ^ Numeral.maxDigits := by
    have hlength : 0x200 + 2 * "shr v01\nmov v1\n ld i,300".length ≤ 10 ^ 3 := by decide
    exact Nat.le_trans hlength (Nat.pow_le_pow_right (by decide) (by decide))
  have hnormal : "\n".intercalate (((Text.lines "shr v01\nmov v1\n ld i,300").filter
      isAccepted).map normalLine) = "SHR V1, V0\nLD I, 300" := by decide +kernel
  obtain ⟨run, words, hassemble, hsweep, htext, -⟩ := disassembly_of_assembly hrun hsize
  exact ⟨hrun, hsize, run, words, hassemble, hsweep, htext.trans hnormal⟩

end Chip8
