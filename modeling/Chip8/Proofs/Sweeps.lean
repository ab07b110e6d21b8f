import Chip8.Proofs.RomRoundTrip

/-!
# The words of a sweep

A sweep walks over the addresses of an image and reads a word at every even one that has another
behind it.  This file says in closed form what it finds there: how many words, at which addresses,
and which bytes are left out.

* `getElem?_wordsOf` is the word in a place: its bytes are those at twice the place.  The recursion
  over the image, two bytes at a time, is done with once it is proved.
* `wordAt_eq` shows that the word in a place is the one that is read alone at its offset.
* `Sweep.Covers` is the account of a sweep.  `sweep_covers` says when it holds: the walk is the same
  as cutting the image into pairs of bytes (`Decoder.sweep_eq`), and these are the words.
* `exists_trail` says what a sweep logs, and `disassemble_covers` is the result.

A word can be read at any offset that has two bytes, whatever its address.  A sweep cannot: it puts
the addresses into its trail, and one that is too long to be printed breaks it off, as
`sweep_odd_overlong` shows.
-/

namespace Chip8

/-! ## Words of an image -/

lemma Word.bytes_ofBytes (high low : UInt8) : (ofBytes high low).bytes = [high, low] := by
  have hlow := low.toNat_lt
  have hhigh : (256 * high.toNat + low.toNat) / 256 = high.toNat := by omega
  have hmod : (256 * high.toNat + low.toNat) % 256 = low.toNat := by omega
  rw [bytes, ofBytes]
  simp only [hhigh, hmod, UInt8.ofNat_toNat]

/-- **The bytes of the words of an image are its bytes,** but for a last single one. -/
lemma flatMap_bytes_wordsOf (rom : List UInt8) :
    (wordsOf rom).flatMap Word.bytes = rom.take (2 * (wordsOf rom).length) := by
  fun_induction wordsOf rom with
  | case1 high low rest ih =>
      rw [List.flatMap_cons, Word.bytes_ofBytes, ih, List.length_cons, Nat.mul_succ]
      rfl
  | case2 rom hshort => rfl

/-- **The word in a place** has the two bytes at twice the place. -/
lemma getElem?_wordsOf (rom : List UInt8) (i : Nat) :
    (wordsOf rom)[i]? =
      match rom.drop (2 * i) with
      | high :: low :: _ => some (Word.ofBytes high low)
      | _ => none := by
  fun_induction wordsOf rom generalizing i with
  | case1 high low rest ih =>
      rcases i with _ | i
      · rfl
      · rw [List.getElem?_cons_succ, ih, Nat.mul_succ, List.drop_succ_cons, List.drop_succ_cons]
  | case2 rom hshort =>
      have hlen := length_lt_two hshort
      rw [List.getElem?_nil]
      split
      · next high low rest hdrop =>
          have hrest := congrArg List.length hdrop
          simp only [List.length_drop, List.length_cons] at hrest
          omega
      · rfl

lemma exists_bytes {rom : List UInt8} {start i : Nat} {w : Word}
    (h : (wordsOf (rom.drop start))[i]? = some w) :
    ∃ high low rest, rom.drop (start + 2 * i) = high :: low :: rest ∧
      w = Word.ofBytes high low := by
  rw [getElem?_wordsOf, List.drop_drop] at h
  split at h
  · next high low rest hdrop => exact ⟨high, low, rest, hdrop, (Option.some.inj h).symm⟩
  · cases h

lemma getElem?_readings (address : Int) (ws : List Word) (i : Nat) :
    (readings address ws)[i]? = ws[i]?.map fun w =>
      ⟨address + 2 * i, w, textOf w, Decoder.standard.lookup w.value⟩ := by
  induction ws generalizing address i with
  | nil => rfl
  | cons w ws ih =>
      rcases i with _ | i
      · simp [readings]
      · rw [readings, List.getElem?_cons_succ, List.getElem?_cons_succ, ih]
        have hnext : address + 2 + 2 * (i : Int) = address + 2 * ((i + 1 : Nat) : Int) := by omega
        rw [hnext]

lemma length_readings (address : Int) (ws : List Word) :
    (readings address ws).length = ws.length := by
  induction ws generalizing address with
  | nil => rfl
  | cons w ws ih => rw [readings, List.length_cons, List.length_cons, ih]

lemma words_readings (address : Int) (ws : List Word) :
    (readings address ws).map (·.word) = ws := by
  induction ws generalizing address with
  | nil => rfl
  | cons w ws ih => rw [readings, List.map_cons, ih]

/-! ## The sweep -/

namespace Decoder

/-- **The word in a place is read alone at its offset.** -/
lemma wordAt_eq {rom : List UInt8} {start i : Nat} {w : Word}
    (h : (wordsOf (rom.drop start))[i]? = some w) (load : Int) :
    standard.wordAt load rom (start + 2 * i) =
      .ok ⟨load + (start + 2 * i), w, textOf w, standard.lookup w.value⟩ := by
  have hoffset : (start : Int) + 2 * i = ((start + 2 * i : Nat) : Int) := by omega
  obtain ⟨high, low, rest, hdrop, rfl⟩ := exists_bytes h
  rw [hoffset, wordAt_of_drop standard load hdrop]
  simp only [readWord, decodeWord_standard, bind, Except.bind, pure, Except.pure]

/-- **A word can be read at an offset exactly if both bytes are there.** -/
lemma wordAt_cases (load : Int) (rom : List UInt8) (offset : Int) :
    (offset < 0 ∨ rom.length ≤ offset + 1) ∧
        standard.wordAt load rom offset = .error (.offsetRange offset rom.length) ∨
      (0 ≤ offset ∧ offset + 1 < rom.length) ∧
        ∃ d, standard.wordAt load rom offset = .ok d ∧ d.address = load + offset := by
  rcases Int.lt_or_le offset 0 with hneg | hpos
  · left
    rw [wordAt, if_neg (by omega)]
    exact ⟨.inl hneg, rfl⟩
  · obtain ⟨n, rfl⟩ := Int.eq_ofNat_of_zero_le hpos
    have hlen : rom.length - n = (rom.drop n).length := List.length_drop.symm
    rw [wordAt, if_pos hpos, Int.toNat_natCast]
    rcases hdrop : rom.drop n with _ | ⟨high, _ | ⟨low, rest⟩⟩
    · left
      rw [hdrop, List.length_nil] at hlen
      exact ⟨.inr (by omega), rfl⟩
    · left
      rw [hdrop, List.length_singleton] at hlen
      exact ⟨.inr (by omega), rfl⟩
    · right
      rw [hdrop, List.length_cons, List.length_cons] at hlen
      refine ⟨⟨hpos, by omega⟩, ?_⟩
      simp only [readWord, decodeWord_standard, bind, Except.bind, pure, Except.pure]
      exact ⟨_, rfl, rfl⟩

end Decoder

/-! ## The account of a sweep -/

/-- **The words of a sweep are those at the even addresses of an image.** -/
structure Sweep.Covers (sweep : Sweep) (load : Int) (rom : List UInt8) : Prop where
  /-- There are as many as fit behind the first byte at an even address. -/
  count : (sweep.words.length : Int) = max 0 ((rom.length - load % 2) / 2)
  /-- They lie at the even addresses, one after the other. -/
  address : ∀ (i : Nat) (d : DisassembledWord), sweep.words[i]? = some d →
    d.address = load + load % 2 + 2 * i ∧ d.address % 2 = 0
  /-- Each has the two bytes at its offset, the high one first. -/
  word : ∀ (i : Nat) (d : DisassembledWord), sweep.words[i]? = some d →
    ∃ high low, rom[(load % 2).toNat + 2 * i]? = some high ∧
      rom[(load % 2).toNat + 2 * i + 1]? = some low ∧
      d.word.value = 256 * high.toNat + low.toNat
  /-- Each is the one that is read alone at its offset. -/
  alone : ∀ (i : Nat) (d : DisassembledWord), sweep.words[i]? = some d →
    Decoder.standard.wordAt load rom (load % 2 + 2 * i) = .ok d
  /-- Their bytes are those of the image, from the first one at an even address on. -/
  bytes : sweep.words.flatMap (·.word.bytes) =
    (rom.drop (load % 2).toNat).take (2 * sweep.words.length)
  /-- At most one byte is left out behind them. -/
  rest : rom.length ≤ (load % 2).toNat + 2 * sweep.words.length + 1

lemma covers_readings (load : Int) (rom : List UInt8) :
    ({ words := readings (load + load % 2) (wordsOf (rom.drop (load % 2).toNat)) } : Sweep).Covers
      load rom := by
  have hparity : ((load % 2).toNat : Int) = load % 2 := by omega
  have hlength : (readings (load + load % 2) (wordsOf (rom.drop (load % 2).toNat))).length =
      (rom.length - (load % 2).toNat) / 2 := by
    rw [length_readings, length_wordsOf, List.length_drop]
  have hword : ∀ (i : Nat) (d : DisassembledWord),
      (readings (load + load % 2) (wordsOf (rom.drop (load % 2).toNat)))[i]? = some d →
        ∃ w, (wordsOf (rom.drop (load % 2).toNat))[i]? = some w ∧
          ⟨load + load % 2 + 2 * i, w, textOf w, Decoder.standard.lookup w.value⟩ = d := by
    intro i d hd
    rw [getElem?_readings] at hd
    exact Option.map_eq_some_iff.mp hd
  constructor
  case count =>
    rw [hlength]
    omega
  case address =>
    intro i d hd
    obtain ⟨w, -, rfl⟩ := hword i d hd
    refine ⟨rfl, ?_⟩
    show (load + load % 2 + 2 * (i : Int)) % 2 = 0
    omega
  case word =>
    intro i d hd
    obtain ⟨w, hw, rfl⟩ := hword i d hd
    obtain ⟨high, low, rest, hdrop, rfl⟩ := exists_bytes hw
    have hat : ∀ k, rom[(load % 2).toNat + 2 * i + k]? = (high :: low :: rest)[k]? := by
      intro k
      rw [← hdrop, List.getElem?_drop]
    exact ⟨high, low, hat 0, hat 1, rfl⟩
  case alone =>
    intro i d hd
    obtain ⟨w, hw, rfl⟩ := hword i d hd
    rw [← hparity, Decoder.wordAt_eq hw, hparity, Int.add_assoc]
  case bytes =>
    rw [length_readings, ← flatMap_bytes_wordsOf, ← List.flatMap_map, words_readings]
  case rest =>
    rw [hlength]
    omega

/-- **The trail of a sweep does not depend on the settings,** but for a warning in front of it. -/
lemma exists_trail (size : Nat) (sweep : Sweep) :
    ∃ trail, (∀ settings, disassemblyLog settings size sweep =
        oversizeWarning settings size ++ trail) ∧
      ∀ entry ∈ trail, entry.severity = .debug := by
  have htrace : ∀ entry ∈ sweep.words.map (·.trace), entry.severity = .debug := by
    intro entry hentry
    obtain ⟨d, -, rfl⟩ := List.mem_map.mp hentry
    rfl
  cases hfault : sweep.fault with
  | some fault =>
      refine ⟨sweep.words.map (·.trace), fun settings => ?_, htrace⟩
      simp only [disassemblyLog, hfault, List.append_nil]
  | none =>
      refine ⟨sweep.words.map (·.trace) ++ [sweepTotals sweep.words], fun settings => ?_, ?_⟩
      · simp only [disassemblyLog, hfault, List.append_assoc]
      · intro entry hentry
        rcases List.mem_append.mp hentry with hword | htotals
        · exact htrace entry hword
        · rw [List.mem_singleton.mp htotals]
          rfl

/-- **A sweep is not broken off if the addresses of its words can be printed,** and then it covers
    the image. -/
lemma sweep_covers {load : Int} {rom : List UInt8}
    (h : ∀ i : Nat, load % 2 + 2 * i + 1 < rom.length →
      Numeral.isPrintable (load + load % 2 + 2 * i) = true) :
    (Decoder.standard.sweep load rom).fault = none ∧
      (Decoder.standard.sweep load rom).Covers load rom := by
  have hprint : ∀ i < (wordsOf (rom.drop (load % 2).toNat)).length,
      Numeral.isPrintable (load + load % 2 + 2 * i) = true := by
    intro i hi
    rw [length_wordsOf, List.length_drop] at hi
    exact h i (by omega)
  rw [Decoder.sweep_eq, sweepFrom_eq hprint]
  exact ⟨rfl, covers_readings load rom⟩

/-- **A sweep reads every word at an even address once.**  If the addresses of these words can be
    printed, it is not broken off, and its words are those of the image.  Neither the words nor the
    trail depend on the size of the memory, which only decides about the warning in front of the
    trail.  A word that is read alone is there whenever both bytes are. -/
theorem disassemble_covers (settings : Settings) (rom : List UInt8) :
    ∃ sweep trail,
      (∀ size : Int, Decoder.standard.disassemble { settings with memorySize := size } rom =
        (sweep, (if settings.loadAddress + rom.length > size then
          [.warning ("ROM of " ++ Numeral.ofNat rom.length ++ " bytes extends past " ++
            addressText size)] else []) ++ trail)) ∧
      (∀ entry ∈ trail, entry.severity = .debug) ∧
      ((∀ i : Nat, settings.loadAddress % 2 + 2 * i + 1 < rom.length →
        Numeral.isPrintable (settings.loadAddress + settings.loadAddress % 2 + 2 * i) = true) →
          sweep.fault = none ∧ sweep.Covers settings.loadAddress rom) ∧
      ∀ offset : Int,
        (offset < 0 ∨ rom.length ≤ offset + 1) ∧
            Decoder.standard.wordAt settings.loadAddress rom offset =
              .error (.offsetRange offset rom.length) ∨
          (0 ≤ offset ∧ offset + 1 < rom.length) ∧
            ∃ d, Decoder.standard.wordAt settings.loadAddress rom offset = .ok d ∧
              d.address = settings.loadAddress + offset := by
  obtain ⟨load, memory, source, ending, assembled, level⟩ := settings
  obtain ⟨trail, hlog, hdebug⟩ := exists_trail rom.length (Decoder.standard.sweep load rom)
  refine ⟨Decoder.standard.sweep load rom, trail, ?_, hdebug, sweep_covers,
    Decoder.wordAt_cases load rom⟩
  intro size
  rw [Decoder.disassemble, hlog]
  rfl

/-- From an odd address on, the first byte of three is passed over. -/
theorem disassemble_covers_odd :
    ∃ sweep trail,
      Decoder.standard.disassemble { loadAddress := 0x201 } [0xFF, 0x00, 0xE0] = (sweep, trail) ∧
        sweep.fault = none ∧ sweep.Covers 0x201 [0xFF, 0x00, 0xE0] ∧ sweep.words.length = 1 := by
  obtain ⟨sweep, trail, hsweep, -, hcovers, -⟩ :=
    disassemble_covers { loadAddress := 0x201 } [0xFF, 0x00, 0xE0]
  have hprint : ∀ i : Nat,
      (0x201 : Int) % 2 + 2 * i + 1 < ([0xFF, 0x00, 0xE0] : List UInt8).length →
        Numeral.isPrintable (0x201 + 0x201 % 2 + 2 * i) = true := by
    intro i hi
    simp only [List.length_cons, List.length_nil] at hi
    obtain rfl : i = 0 := by omega
    decide
  obtain ⟨hfault, hcovers⟩ := hcovers hprint
  have hcount := hcovers.count
  simp only [List.length_cons, List.length_nil] at hcount
  exact ⟨sweep, _, hsweep _, hfault, hcovers, by omega⟩

lemma not_isPrintable_pow : ¬ Numeral.isPrintable (10 ^ Numeral.maxDigits) = true := by
  have hcast : (10 ^ Numeral.maxDigits : Int) = ((10 ^ Numeral.maxDigits : Nat) : Int) := by
    rw [Int.natCast_pow]
    rfl
  rw [Numeral.isPrintable, Numeral.fitsIn_iff, hcast]
  generalize 10 ^ Numeral.maxDigits = bound
  omega

/-- **With the odd load address `10 ^ 4300 - 1` the only word lies at `10 ^ 4300`,** which is too
    long to be printed, and the sweep is broken off before it. -/
theorem sweep_odd_overlong :
    (10 ^ Numeral.maxDigits - 1 : Int) % 2 = 1 ∧
      (Decoder.standard.disassemble { loadAddress := 10 ^ Numeral.maxDigits - 1 }
        [0x00, 0x00, 0xE0]).1 = { words := [], fault := some .overlongValue } := by
  have hodd : (10 ^ Numeral.maxDigits - 1 : Int) % 2 = 1 := by
    obtain ⟨half, hhalf⟩ : ∃ half : Int, (10 ^ Numeral.maxDigits : Int) = 2 * half := by
      obtain ⟨digits, hdigits⟩ : ∃ digits, Numeral.maxDigits = digits + 1 := ⟨4299, rfl⟩
      exact ⟨5 * 10 ^ digits, by rw [hdigits, pow_succ]; ring⟩
    rw [hhalf]
    omega
  refine ⟨hodd, ?_⟩
  have hfirst : (10 ^ Numeral.maxDigits - 1 + 1 : Int) = 10 ^ Numeral.maxDigits :=
    Int.sub_add_cancel _ _
  have hdrop : ([0x00, 0x00, 0xE0] : List UInt8).drop (1 : Int).toNat = [0x00, 0xE0] := rfl
  rw [Decoder.disassemble, Decoder.sweep_eq, hodd, hfirst, hdrop, sweepFrom_step,
    if_neg not_isPrintable_pow]

end Chip8
