import Chip8.Proofs.TableRoundTrip

/-!
# The text of every word

Under the standard table every one of the 65536 words has a text (`textOf`), and the text is
assembled again.  Not every word comes back: four instructions are told by fewer digits than they
fix, and a word that has other digits in the ignored places comes back with the proper ones.
`Word.canonical` is the word that comes back.

* `lookup_canonical` and `canonical_of_lookup_none` compare it with what the decoder does, row by
  row where a row ignores digits, and for all other rows at once by their leading nibble.
* `lineWord_textOf` is the round trip of one word, `textOf_canonical` says that the word which
  comes back has the same text.
* `isPlainLine_textOf` is what is needed to put texts on lines.
-/

namespace Chip8

/-! ## Canonical words -/

/-- **The word that the assembler gives for the text of a word.**  The second nibble of `0_E0` and
    `0_EE` is cleared, and so is the lowest nibble of `5___` and `9___`. -/
def Word.canonical (w : Word) : Word :=
  if w.value / 4096 = 0 ∧ (w.value % 256 = 0xE0 ∨ w.value % 256 = 0xEE) then
    ⟨w.value - 256 * w.x, by have := w.value_lt; omega⟩
  else if w.value / 4096 = 5 ∨ w.value / 4096 = 9 then
    ⟨w.value - w.n, by have := w.value_lt; omega⟩
  else w

/-- Masking with a full leading nibble and some lower bits. -/
lemma and_leading {n j : Nat} (hn : n < 0x10000) (hj : j ≤ 12) :
    n &&& (0xF000 + (2 ^ j - 1)) = 4096 * (n / 4096) + n % 2 ^ j := by
  have hpow : 2 ^ j ≤ 2 ^ 12 := Nat.pow_le_pow_right (by decide) hj
  have hpos := Nat.two_pow_pos j
  have hmod : n % 2 ^ j < 2 ^ j := Nat.mod_lt _ hpos
  have hlow : 2 ^ j - 1 < 4096 := by omega
  have hrest : n % 4096 &&& (2 ^ j - 1) = n % 2 ^ j := by
    rw [Nat.and_two_pow_sub_one_eq_mod]
    exact Nat.mod_mod_of_dvd n (Nat.pow_dvd_pow 2 hj)
  have hdiv : (n &&& (0xF000 + (2 ^ j - 1))) / 4096 = n / 4096 := by
    refine Form.leading_and hn ?_
    rw [show (0xF000 + (2 ^ j - 1)) / 4096 = 15 by omega, Nat.and_self]
  have hrem : (n &&& (0xF000 + (2 ^ j - 1))) % 4096 = n % 2 ^ j := by
    rw [show 4096 = 2 ^ 12 from rfl, Nat.and_mod_two_pow, show 2 ^ 12 = 4096 from rfl]
    rw [show (0xF000 + (2 ^ j - 1)) % 4096 = 2 ^ j - 1 by omega, hrest]
  rw [← Nat.div_add_mod (n &&& (0xF000 + (2 ^ j - 1))) 4096, hdiv, hrem]

lemma and_lead {n : Nat} (hn : n < 0x10000) : n &&& 0xF000 = 4096 * (n / 4096) := by
  have h : n &&& 0xF000 = 4096 * (n / 4096) + n % 1 := and_leading hn (Nat.zero_le 12)
  rw [h, Nat.mod_one, Nat.add_zero]

lemma and_lead_nibble {n : Nat} (hn : n < 0x10000) :
    n &&& 0xF00F = 4096 * (n / 4096) + n % 16 :=
  and_leading hn (j := 4) (by omega)

lemma and_lead_byte {n : Nat} (hn : n < 0x10000) :
    n &&& 0xF0FF = 4096 * (n / 4096) + n % 256 :=
  and_leading hn (j := 8) (by omega)

/-! ## Rows that ignore digits -/

namespace Table

/-- The rows that are told by other digits than they fix. -/
lemma standard_decodeMask : standard.filter (·.decodeMask.isSome) =
    [⟨"CLS", [], "00E0", "Clear the display", true, some 0xF0FF⟩,
      ⟨"RET", [], "00EE", "Return from subroutine", true, some 0xF0FF⟩,
      ⟨"SE", [vx, vy], "5xy0", "Skip next if Vx == Vy", true, some 0xF000⟩,
      ⟨"SNE", [vx, vy], "9xy0", "Skip next if Vx != Vy", true, some 0xF000⟩] := by decide

/-- What they are told by: a value and the digits that are looked at. -/
lemma standard_told : ∀ p ∈ [(0xE0, 0xF0FF), (0xEE, 0xF0FF), (0x5000, 0xF000), (0x9000, 0xF000)],
    ∃ form ∈ standard, form.canonical = true ∧
      ∃ bits ∈ form.bits?, bits.1 = p.1 ∧ bits.2.2 = p.2 := by
  decide +kernel

lemma standard_leading : ∀ form ∈ standard, form.decodeMask = none →
    ∃ bits ∈ form.bits?, bits.1 / 4096 ≠ 0 ∧ bits.1 / 4096 ≠ 5 ∧ bits.1 / 4096 ≠ 9 := by
  decide +kernel

end Table

/-- A word with a leading nibble other than those of the four rows is canonical. -/
lemma Word.canonical_eq_self {w : Word} (h0 : w.value / 4096 ≠ 0) (h5 : w.value / 4096 ≠ 5)
    (h9 : w.value / 4096 ≠ 9) : w.canonical = w := by
  rw [canonical, if_neg (fun h => h0 h.1), if_neg (fun h => h.elim h5 h9)]

lemma Word.canonical_low {w : Word} (h0 : w.value / 4096 = 0)
    (hlow : w.value % 256 = 0xE0 ∨ w.value % 256 = 0xEE) : w.canonical.value = w.value % 256 := by
  rw [canonical, if_pos ⟨h0, hlow⟩]
  simp only [x]
  omega

lemma Word.canonical_skip {w : Word} (h : w.value / 4096 = 5 ∨ w.value / 4096 = 9) :
    w.canonical.value = 16 * (w.value / 16) := by
  rw [canonical, if_neg (by omega), if_pos h]
  simp only [n]
  omega

/-- A row without fields that is told by its leading nibble and its low byte. -/
lemma canonical_spec_low {form : Form} {w : Word} {low : Nat} (hlow : low = 0xE0 ∨ low = 0xEE)
    (hbits : form.bits? = some (low, 0xFFFF, 0xF0FF)) (hlayout : form.layout = [])
    (hr : form.matchesCode w.value = .ok true) :
    form.fits w.canonical.value = .ok true ∧
      form.extract w.canonical.value = form.extract w.value := by
  have hw := w.value_lt
  rw [Form.matchesCode_iff hbits, and_lead_byte hw] at hr
  have hvalue : w.canonical.value = low := by
    rw [Word.canonical_low (by omega) (by omega)]
    omega
  refine ⟨?_, by simp [Form.extract, hlayout]⟩
  rw [hvalue, Form.fits_iff hbits]
  rcases hlow with rfl | rfl
  · rfl
  · rfl

/-- A row of two registers that is told by its leading nibble. -/
lemma canonical_spec_skip {form : Form} {w : Word} {lead : Nat} (hlead : lead = 5 ∨ lead = 9)
    (hbits : form.bits? = some (4096 * lead, 0xF00F, 0xF000))
    (hlayout : form.layout = [(.x, ⟨8, 4⟩), (.y, ⟨4, 4⟩)])
    (hr : form.matchesCode w.value = .ok true) :
    form.fits w.canonical.value = .ok true ∧
      form.extract w.canonical.value = form.extract w.value := by
  have hw := w.value_lt
  rw [Form.matchesCode_iff hbits, and_lead hw] at hr
  have hvalue : w.canonical.value = 16 * (w.value / 16) := Word.canonical_skip (by omega)
  rw [hvalue, Form.fits_iff hbits, and_lead_nibble (by omega)]
  refine ⟨by omega, ?_⟩
  simp only [Form.extract, hlayout, List.map_cons, List.map_nil, Form.extractSpan_natCast,
    List.cons.injEq, Prod.mk.injEq, true_and, and_true]
  omega

/-- **The row that reads a word reads the same fields off the canonical word,** which has all digits
    that the row fixes. -/
theorem canonical_spec {form : Form} {w : Word} (hm : form ∈ Table.standard)
    (hr : form.matchesCode w.value = .ok true) :
    form.fits w.canonical.value = .ok true ∧
      form.extract w.canonical.value = form.extract w.value := by
  cases hmask : form.decodeMask with
  | none =>
      obtain ⟨⟨value, fixed, told⟩, hbits, h0, h5, h9⟩ := Table.standard_leading form hm hmask
      obtain ⟨hv, hf, ht⟩ := Form.bits?_eq_some_iff.mp hbits
      have hfamily := (Table.standard_isTold form hm).family_eq hv hr
      rw [hfamily] at h0 h5 h9
      rw [Word.canonical_eq_self h0 h5 h9]
      refine ⟨?_, rfl⟩
      rw [Form.matchMask, hmask, hf] at ht
      have hsame : fixed = told := Int.ofNat_inj.mp (Except.ok.inj ht)
      rwa [Form.fits_iff hbits, hsame, ← Form.matchesCode_iff hbits]
  | some bits =>
      have hfilter : form ∈ Table.standard.filter (·.decodeMask.isSome) :=
        List.mem_filter.mpr ⟨hm, by simp [hmask]⟩
      rw [Table.standard_decodeMask] at hfilter
      simp only [List.mem_cons, List.not_mem_nil, or_false] at hfilter
      rcases hfilter with rfl | rfl | rfl | rfl
      · exact canonical_spec_low (Or.inl rfl) rfl rfl hr
      · exact canonical_spec_low (Or.inr rfl) rfl rfl hr
      · exact canonical_spec_skip (Or.inl rfl) rfl rfl hr
      · exact canonical_spec_skip (Or.inr rfl) rfl rfl hr

/-- **A word that no row reads is canonical.** -/
theorem canonical_of_lookup_none {w : Word} (h : Decoder.standard.lookup w.value = none) :
    w.canonical = w := by
  have hw := w.value_lt
  have hno : ∀ p ∈ [(0xE0, 0xF0FF), (0xEE, 0xF0FF), (0x5000, 0xF000), (0x9000, 0xF000)],
      w.value &&& p.2 ≠ p.1 := by
    intro p hp hand
    obtain ⟨form, hm, hc, ⟨value, fixed, told⟩, hbits, hvalue, htold⟩ := Table.standard_told p hp
    simp only at hvalue htold
    rw [← hvalue, ← htold, ← Form.matchesCode_iff hbits] at hand
    rw [Decoder.lookup_standard_iff.mpr ⟨hm, hc, hand⟩] at h
    simp at h
  simp only [List.forall_mem_cons, and_lead_byte hw, and_lead hw] at hno
  obtain ⟨hcls, hret, hse, hsne, -⟩ := hno
  -- Each condition of `canonical` is one of the four rows that did not read the word.
  rw [Word.canonical, if_neg (by omega), if_neg (by omega)]

/-- **The row that reads a word packs its fields into the canonical word.** -/
lemma repack_eq_canonical {form : Form} {w : Word}
    (h : Decoder.standard.lookup w.value = some form) : form.repack w = .ok w.canonical := by
  obtain ⟨hm, -, hr⟩ := Decoder.lookup_standard_iff.mp h
  have hreg := (Table.standard_forms form hm).regular
  obtain ⟨hfits, hextract⟩ := canonical_spec hm hr
  obtain ⟨u, hu, hufits, huextract⟩ := hreg.repack_spec w
  rw [hu, hreg.eq_of_extract hufits hfits (huextract.trans hextract.symm)]

lemma lookup_canonical {form : Form} {w : Word}
    (h : Decoder.standard.lookup w.value = some form) :
    Decoder.standard.lookup w.canonical.value = some form := by
  obtain ⟨hm, hc, hr⟩ := Decoder.lookup_standard_iff.mp h
  have hfits := (canonical_spec hm hr).1
  exact Decoder.lookup_standard_iff.mpr
    ⟨hm, hc, (Table.standard_isTold form hm).matchesCode_of_fits hfits⟩

/-! ## Texts -/

/-- **The text that is printed for a word.** -/
def textOf (w : Word) : String :=
  match Decoder.standard.decodeWord w with
  | .ok (text, _) => text
  | .error _ => ""

/-- A word that a row reads is printed as a line of that row, and its text is assembled as the
    canonical word. -/
lemma textOf_some {form : Form} {w : Word} (h : Decoder.standard.lookup w.value = some form) :
    ∃ texts, form.renderOperands w.value = .ok texts ∧ (∀ t ∈ texts, IsCapitalWord t) ∧
      textOf w = writtenLine form.mnemonic texts ∧
      Decoder.standard.decodeWord w = .ok (textOf w, some form) ∧
      Table.standard.lineWord (textOf w) = .ok (w.canonical, false) := by
  obtain ⟨hm, -, -⟩ := Decoder.lookup_standard_iff.mp h
  obtain ⟨texts, u, hrender, htexts, hu, hline⟩ := Table.standard_wellFormed.lineWord_render hm w
  have hdecode : Decoder.standard.decodeWord w =
      .ok (writtenLine form.mnemonic texts, some form) := by
    rw [Decoder.decodeWord, h]
    simp only [Form.render_eq, hrender, Except.map]
  have htext : textOf w = writtenLine form.mnemonic texts := by rw [textOf, hdecode]
  rw [repack_eq_canonical h, Except.ok.injEq] at hu
  refine ⟨texts, hrender, htexts, htext, ?_, ?_⟩
  · rw [htext, hdecode]
  · rw [htext, hline, hu]

lemma textOf_none {w : Word} (h : Decoder.standard.lookup w.value = none) :
    textOf w = w.hex ∧ Decoder.standard.decodeWord w = .ok (w.hex, none) := by
  have hdecode : Decoder.standard.decodeWord w = .ok (w.hex, none) := by
    rw [Decoder.decodeWord, h]
  exact ⟨by rw [textOf, hdecode], hdecode⟩

/-- **Every word has a text.** -/
theorem decodeWord_standard (w : Word) :
    Decoder.standard.decodeWord w = .ok (textOf w, Decoder.standard.lookup w.value) := by
  cases h : Decoder.standard.lookup w.value with
  | none =>
      obtain ⟨htext, hdecode⟩ := textOf_none h
      rw [htext, hdecode]
  | some form =>
      obtain ⟨-, -, -, -, hdecode, -⟩ := textOf_some h
      exact hdecode

/-- **The text of a word is assembled as the canonical word.** -/
theorem lineWord_textOf (w : Word) : Table.standard.lineWord (textOf w) =
    .ok (w.canonical, (Decoder.standard.lookup w.value).isNone) := by
  cases h : Decoder.standard.lookup w.value with
  | none =>
      rw [(textOf_none h).1, Table.standard_wellFormed.lineWord_hex, canonical_of_lookup_none h]
      rfl
  | some form =>
      obtain ⟨-, -, -, -, -, hline⟩ := textOf_some h
      exact hline

/-- **The canonical word has the same text.** -/
theorem textOf_canonical (w : Word) : textOf w.canonical = textOf w := by
  cases h : Decoder.standard.lookup w.value with
  | none => rw [canonical_of_lookup_none h]
  | some form =>
      obtain ⟨hm, -, hr⟩ := Decoder.lookup_standard_iff.mp h
      obtain ⟨texts, hrender, -, htext, -⟩ := textOf_some h
      obtain ⟨texts', hrender', -, htext', -⟩ := textOf_some (lookup_canonical h)
      have hsame : form.renderOperands w.canonical.value = form.renderOperands w.value := by
        rw [Form.renderOperands, Form.renderOperands, (canonical_spec hm hr).2]
      rw [hsame, hrender, Except.ok.injEq] at hrender'
      rw [htext, htext', hrender']

/-! ## Texts on lines -/

lemma writtenLine_plain {mnemonic : String} (hm : IsCapitalWord mnemonic) {operands : List String}
    (ho : ∀ t ∈ operands, IsCapitalWord t) :
    Text.IsPlainLine (writtenLine mnemonic operands).toList ∧
      Text.isBlankLine (writtenLine mnemonic operands) = false := by
  obtain ⟨first, rest, hfirst⟩ := List.exists_cons_of_ne_nil hm.1
  have hblank : Text.isBlank first = false := (capital_plain (hm.2 first (by simp [hfirst]))).2.1
  have hword : ∀ {word : String}, IsCapitalWord word → ∀ c ∈ word.toList,
      Text.isLineBreak c = false := fun h c hc => (capital_plain (h.2 c hc)).2.2
  rcases operands with _ | ⟨t, ts⟩
  · have hline : writtenLine mnemonic [] = mnemonic := rfl
    rw [hline, Text.isBlankLine]
    exact ⟨⟨hm.1, hword hm⟩, by simp [hfirst, hblank]⟩
  · rw [Text.isBlankLine, toList_writtenLine]
    refine ⟨⟨by simp [hfirst], fun c hc => ?_⟩, by simp [hfirst, hblank]⟩
    rcases List.mem_append.mp hc with hc | hc
    · exact hword hm c hc
    · obtain ⟨p, hp, hc⟩ := List.mem_flatMap.mp hc
      have hsep : ∀ d ∈ [',', ' '], Text.isLineBreak d = false := by simp [Text.isLineBreak]
      rcases List.mem_cons.mp hp with rfl | hp
      · rcases List.mem_append.mp hc with hc | hc
        · exact hsep c (List.mem_cons_of_mem _ hc)
        · exact hword (ho t List.mem_cons_self) c hc
      · obtain ⟨u, hu, rfl⟩ := List.mem_map.mp hp
        rcases List.mem_append.mp hc with hc | hc
        · exact hsep c hc
        · exact hword (ho u (List.mem_cons_of_mem _ hu)) c hc

lemma Table.standard_capital : ∀ form ∈ standard, IsCapitalWord form.mnemonic := by decide +kernel

/-- **The text of a word is a plain line, and not a blank one.** -/
theorem isPlainLine_textOf (w : Word) :
    Text.IsPlainLine (textOf w).toList ∧ Text.isBlankLine (textOf w) = false := by
  cases h : Decoder.standard.lookup w.value with
  | none =>
      have hline : w.hex = writtenLine w.hex [] := rfl
      rw [(textOf_none h).1, hline]
      exact writtenLine_plain (isCapitalWord_hex w) (by simp)
  | some form =>
      obtain ⟨texts, -, htexts, htext, -⟩ := textOf_some h
      obtain ⟨hm, -, -⟩ := Decoder.lookup_standard_iff.mp h
      rw [htext]
      exact writtenLine_plain (Table.standard_capital form hm) htexts

end Chip8
