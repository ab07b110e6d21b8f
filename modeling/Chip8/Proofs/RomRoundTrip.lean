import Chip8.Assembly
import Chip8.Disassembly
import Chip8.Proofs.AddressWalk
import Chip8.Proofs.WordTexts

/-!
# Assembling the disassembly of a ROM

The disassembler puts the text of every word on a line of its own, the assembler gives every
line a word.  Since each text is a plain line and is assembled as the canonical word, the two
runs go in step: no line is dropped, and word and line stand at the same address.

* `wordsOf` are the words of an image, `readings` what a sweep makes of them, `assembled` what a
  run makes of their texts.
* `sweepFrom_step` is one step of the sweep and `sweepFrom_eq` the whole of it; the only thing
  that can go wrong is an address which is too long to be printed.
* `assembleLines_texts` is the run over texts, one line after the other.
* `assemble_disassembly` puts them together.
-/

namespace Chip8

/-! ## Words and bytes -/

/-- **The words of an image,** high byte first.  A last single byte is none. -/
def wordsOf : List UInt8 → List Word
  | high :: low :: rest => Word.ofBytes high low :: wordsOf rest
  | _ => []

/-- What does not begin with two bytes is shorter than two. -/
lemma length_lt_two {rom : List UInt8}
    (hshort : ∀ high low rest, rom = high :: low :: rest → False) : rom.length < 2 := by
  rcases rom with _ | ⟨high, _ | ⟨low, rest⟩⟩
  · simp
  · simp
  · exact (hshort high low rest rfl).elim

/-- An image has a word for every two bytes. -/
lemma length_wordsOf (rom : List UInt8) : (wordsOf rom).length = rom.length / 2 := by
  fun_induction wordsOf rom with
  | case1 high low rest ih =>
      simp only [List.length_cons, ih]
      omega
  | case2 rom hshort =>
      have hlen := length_lt_two hshort
      rw [List.length_nil]
      omega

lemma wordsOf_bytes (ws : List Word) : wordsOf (ws.flatMap Word.bytes) = ws := by
  induction ws with
  | nil => rfl
  | cons w ws ih =>
      rw [List.flatMap_cons, Word.bytes, List.cons_append, List.cons_append, List.nil_append,
        wordsOf, Word.ofBytes_bytes, ih]

/-! ## The sweep -/

/-- **What a sweep makes of some words,** the first of which lies at an address. -/
def readings : Int → List Word → List DisassembledWord
  | _, [] => []
  | address, w :: ws =>
    ⟨address, w, textOf w, Decoder.standard.lookup w.value⟩ :: readings (address + 2) ws

lemma texts_readings (address : Int) (ws : List Word) :
    (readings address ws).map (·.text) = ws.map textOf := by
  induction ws generalizing address with
  | nil => rfl
  | cons w ws ih => rw [readings, List.map_cons, List.map_cons, ih]

lemma disassemblyText_readings (address : Int) (ws : List Word) :
    disassemblyText (readings address ws) = "\n".intercalate (ws.map textOf) := by
  rw [disassemblyText, texts_readings]

/-- **One step of a sweep.** -/
lemma sweepFrom_step (address : Int) (high low : UInt8) (rest : List UInt8) :
    Decoder.standard.sweepFrom address (high :: low :: rest) =
      if Numeral.isPrintable address then
        (Decoder.standard.sweepFrom (address + 2) rest).cons
          ⟨address, Word.ofBytes high low, textOf (Word.ofBytes high low),
            Decoder.standard.lookup (Word.ofBytes high low).value⟩
      else { fault := some .overlongValue } := by
  simp only [Decoder.sweepFrom, Decoder.readWord, decodeWord_standard, DisassembledWord.checked,
    bind, Except.bind, pure, Except.pure]
  split_ifs <;> rfl

/-- **A sweep reads all words of an image** if their addresses can be printed. -/
lemma sweepFrom_eq {address : Int} {rom : List UInt8}
    (h : ∀ k < (wordsOf rom).length, Numeral.isPrintable (address + 2 * k) = true) :
    Decoder.standard.sweepFrom address rom = { words := readings address (wordsOf rom) } := by
  fun_induction wordsOf rom generalizing address with
  | case1 high low rest ih =>
      rw [List.length_cons] at h
      have hfirst : Numeral.isPrintable address = true := by simpa using h 0 (by omega)
      have hrest : ∀ k < (wordsOf rest).length,
          Numeral.isPrintable (address + 2 + 2 * k) = true := by
        intro k hk
        have hnext := h (k + 1) (by omega)
        rwa [show address + 2 * ((k + 1 : Nat) : Int) = address + 2 + 2 * k by omega] at hnext
      rw [sweepFrom_step, if_pos hfirst, ih hrest]
      rfl
  | case2 rom hshort =>
      rcases rom with _ | ⟨high, _ | ⟨low, rest⟩⟩
      · rfl
      · rfl
      · exact absurd rfl (hshort high low rest)

/-! ## The run -/

/-- **What a run makes of the texts of some words,** the first of which has a line number and an
    address. -/
def assembled : Int → Nat → List Word → List EncodedLine
  | _, _, [] => []
  | address, number, w :: ws =>
    ⟨number, address, w.canonical, textOf w, (Decoder.standard.lookup w.value).isNone⟩ ::
      assembled (address + 2) (number + 1) ws

/-- **A run over texts encodes every line.** -/
lemma assembleLines_texts (address : Int) (number : Nat) (ws : List Word) :
    assembleLines Table.standard address ((ws.map textOf).zipIdx number) =
      { events := (assembled address number ws).map .encoded } := by
  induction ws generalizing address number with
  | nil => rfl
  | cons w ws ih =>
      have hblank := (isPlainLine_textOf w).2
      have hline : Table.standard.encodeLine (textOf w) number address =
          .ok ⟨number, address, w.canonical, textOf w,
            (Decoder.standard.lookup w.value).isNone⟩ := by
        rw [Table.encodeLine, lineWord_textOf]
      rw [List.map_cons, List.zipIdx_cons, assembleLines, if_neg (by simp [hblank]), hline]
      simp only [ih, assembled, List.map_cons, Run.cons]

lemma instructions_encoded (lines : List EncodedLine) (fault : Option Fault) :
    ({ events := lines.map .encoded, fault := fault } : Run).instructions = lines ∧
      ({ events := lines.map .encoded, fault := fault } : Run).rejections = [] := by
  constructor
  · simp [Run.instructions, List.filterMap_map]
  · simp [Run.rejections, List.filterMap_map]

lemma words_assembled (address : Int) (number : Nat) (ws : List Word) :
    (assembled address number ws).map (·.word) = ws.map Word.canonical := by
  induction ws generalizing address number with
  | nil => rfl
  | cons w ws ih => rw [assembled, List.map_cons, List.map_cons, ih]

/-- **The texts of words, on one line each, are assembled without loss** as the canonical words. -/
theorem assemble_texts (load : Int) (ws : List Word) :
    ∃ run, assemble Table.standard load ("\n".intercalate (ws.map textOf)) = run ∧
      run.fault = none ∧ run.rejections = [] ∧ run.instructions = assembled load 1 ws ∧
      run.code = (ws.map Word.canonical).flatMap Word.bytes := by
  have hplain : ∀ l ∈ ws.map textOf, Text.IsPlainLine l.toList := by
    intro l hl
    obtain ⟨w, -, rfl⟩ := List.mem_map.mp hl
    exact (isPlainLine_textOf w).1
  obtain ⟨hinstructions, hrejections⟩ := instructions_encoded (assembled load 1 ws) none
  refine ⟨{ events := (assembled load 1 ws).map .encoded }, ?_, rfl, hrejections, hinstructions, ?_⟩
  · rw [assemble, Text.lines_intercalate hplain, assembleLines_texts]
  · rw [Run.code, hinstructions, ← words_assembled load 1 ws, List.flatMap_map]

/-! ## The round trip -/

/-- The lines of a run stand where the words of a sweep lie. -/
lemma places_assembled (address : Int) (number : Nat) (ws : List Word) :
    (assembled address (number + 1) ws).map (fun e => (e.line, e.address)) =
      ((readings address ws).zipIdx number).map fun p => ((p.2 : Int) + 1, p.1.address) := by
  induction ws generalizing address number with
  | nil => rfl
  | cons w ws ih =>
      rw [assembled, readings, List.map_cons, List.zipIdx_cons, List.map_cons, ih]
      rfl

/-- **The image that comes back:** the canonical words of an image, without a last single byte. -/
def canonicalImage (rom : List UInt8) : List UInt8 :=
  (wordsOf rom).flatMap fun w => w.canonical.bytes

/-- **The disassembly of an image is assembled as its canonical words.**  From an even load address
    on, no address of which is too long to be printed, the sweep is not broken off; its text is
    assembled without a dropped line; line and address of each word are those of the sweep; and
    the image that comes back has the same text.  Of the settings only the load address matters. -/
theorem assemble_disassembly {load : Int} {rom : List UInt8} (heven : load % 2 = 0)
    (hprint : ∀ k : Nat, 2 * k + 1 < rom.length → Numeral.isPrintable (load + 2 * k) = true) :
    ∃ words run again, Decoder.standard.sweep load rom = { words := words } ∧
      assemble Table.standard load (disassemblyText words) = run ∧
      run.fault = none ∧ run.diagnostics = [] ∧ run.code = canonicalImage rom ∧
      run.instructions.map (fun e => (e.line, e.address)) =
        words.zipIdx.map (fun p => ((p.2 : Int) + 1, p.1.address)) ∧
      Decoder.standard.sweep load run.code = { words := again } ∧
      disassemblyText again = disassemblyText words := by
  have hlength := length_wordsOf rom
  have hwords : ∀ k < (wordsOf rom).length, Numeral.isPrintable (load + 2 * k) = true :=
    fun k hk => hprint k (by omega)
  -- What comes back has the canonical words, and as many of them, so it can be swept as well.
  have hsweep : ∀ bytes, wordsOf bytes = (wordsOf rom).map Word.canonical →
      Decoder.standard.sweep load bytes =
        { words := readings load ((wordsOf rom).map Word.canonical) } := by
    intro bytes hbytes
    have hcount : ∀ k < (wordsOf bytes).length, Numeral.isPrintable (load + 2 * k) = true := by
      rw [hbytes, List.length_map]
      exact hwords
    rw [Decoder.sweep_of_even _ heven, sweepFrom_eq hcount, hbytes]
  obtain ⟨run, hrun, hfault, hrejections, hinstructions, hcode⟩ := assemble_texts load (wordsOf rom)
  refine ⟨readings load (wordsOf rom), run, _, ?_, ?_, hfault, ?_, ?_, ?_, hsweep run.code ?_, ?_⟩
  · rw [Decoder.sweep_of_even _ heven, sweepFrom_eq hwords]
  · rw [disassemblyText_readings, hrun]
  · rw [Run.diagnostics, hrejections, List.map_nil]
  · rw [hcode, List.flatMap_map, canonicalImage]
  · rw [hinstructions, places_assembled]
  · rw [hcode, wordsOf_bytes]
  · rw [disassemblyText_readings, disassemblyText_readings, List.map_map]
    have hsame : textOf ∘ Word.canonical = textOf := funext textOf_canonical
    rw [hsame]

/-- At the usual load address the four bytes of two words, the second of them with a stray digit. -/
theorem assemble_disassembly_stray :
    ((0x200 : Int) % 2 = 0 ∧ ∀ k : Nat, 2 * k + 1 < [0x60, 0x0A, 0x51, 0x23].length →
      Numeral.isPrintable (0x200 + 2 * k) = true) ∧
    ∃ words run again, Decoder.standard.sweep 0x200 [0x60, 0x0A, 0x51, 0x23] = { words := words } ∧
      assemble Table.standard 0x200 (disassemblyText words) = run ∧
      run.fault = none ∧ run.diagnostics = [] ∧ run.code = [0x60, 0x0A, 0x51, 0x20] ∧
      run.instructions.map (fun e => (e.line, e.address)) =
        words.zipIdx.map (fun p => ((p.2 : Int) + 1, p.1.address)) ∧
      Decoder.standard.sweep 0x200 run.code = { words := again } ∧
      disassemblyText again = disassemblyText words := by
  have hprint : ∀ k : Nat, 2 * k + 1 < [0x60, 0x0A, 0x51, 0x23].length →
      Numeral.isPrintable (0x200 + 2 * k) = true := by
    intro k hk
    have hlt : 0x200 + 2 * k < 0x10000 := by
      simp only [List.length_cons, List.length_nil] at hk
      omega
    exact_mod_cast Numeral.isPrintable_of_lt hlt
  exact ⟨⟨by decide, hprint⟩, assemble_disassembly (by decide) hprint⟩

/-- **The address `10 ^ 4300` is too long to be printed,** and breaks the sweep off. -/
theorem sweep_overlong_address :
    (10 ^ Numeral.maxDigits - 2 : Int) % 2 = 0 ∧
      (Decoder.standard.sweep (10 ^ Numeral.maxDigits - 2) [0x00, 0xE0, 0x00, 0xE0]).fault =
        some .overlongValue := by
  have hdouble : ∃ b : Int, (10 ^ Numeral.maxDigits : Int) = 2 * b := by
    obtain ⟨digits, hdigits⟩ : ∃ digits, Numeral.maxDigits = digits + 1 := ⟨4299, rfl⟩
    exact ⟨5 * 10 ^ digits, by rw [hdigits, pow_succ]; ring⟩
  have hpos : 10 ≤ 10 ^ Numeral.maxDigits := Nat.le_self_pow (by decide) 10
  have hcast : (10 ^ Numeral.maxDigits : Int) = ((10 ^ Numeral.maxDigits : Nat) : Int) := by
    rw [Int.natCast_pow]
    rfl
  have hshort : Numeral.isPrintable (10 ^ Numeral.maxDigits - 2) = true := by
    rw [Numeral.isPrintable, Numeral.fitsIn_iff, hcast]
    generalize 10 ^ Numeral.maxDigits = bound at hpos
    omega
  have hlong : ¬ Numeral.isPrintable (10 ^ Numeral.maxDigits - 2 + 2) = true := by
    rw [Numeral.isPrintable, Numeral.fitsIn_iff, hcast]
    generalize 10 ^ Numeral.maxDigits = bound
    omega
  have heven : (10 ^ Numeral.maxDigits - 2 : Int) % 2 = 0 := by
    obtain ⟨b, hb⟩ := hdouble
    rw [hb]
    omega
  refine ⟨heven, ?_⟩
  rw [Decoder.sweep_of_even _ heven, sweepFrom_step, if_pos hshort, sweepFrom_step,
    if_neg hlong]
  rfl

end Chip8
