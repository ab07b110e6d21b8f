import Chip8.Proofs.Dispatch

/-!
# What is printed is read back

The disassembler prints a word as a line of assembly, the operands with commas between them, or
as its four digits.  Both kinds of lines fall into the tokens they were made of, and the operands
that are printed spell the slots of the form they were printed for.

* `tokens_writtenLine` is about a whole line of assembly, `Form.WellFormed.renderOperands_spells`
  about its operands.
* `Form.Writes.renderOperands_eq` is the other direction: a word that was written by some tokens
  is printed with these tokens brought into their normal form.
* `Table.isMnemonic_of_ofHex` and `Table.WellFormed.lineWord_hex` are about the four digits, which
  no fit row takes for its mnemonic.
-/

namespace Chip8

/-! ## Lines of assembly -/

/-- **A mnemonic and its operands as a line.** -/
def writtenLine (mnemonic : String) (operands : List String) : String :=
  if operands.isEmpty then mnemonic else mnemonic ++ " " ++ ", ".intercalate operands

lemma Form.render_eq (form : Form) (code : Int) :
    form.render code = (form.renderOperands code).map (writtenLine form.mnemonic) := by
  rw [render]
  cases form.renderOperands code with
  | ok operands => rfl
  | error fault => rfl

/-- Operands with commas between them, as tokens behind separators. -/
lemma toList_intercalate_comma (t : String) (ts : List String) :
    (", ".intercalate (t :: ts)).toList =
      t.toList ++ joined (ts.map fun u => ([',', ' '], u.toList)) := by
  have hcomma : ", ".toList = [',', ' '] := rfl
  rw [String.toList_intercalate, hcomma]
  induction ts generalizing t with
  | nil => simp
  | cons u ts ih =>
      rw [List.map_cons, List.map_cons, List.intercalate_cons_cons, ← List.map_cons, ih u,
        List.map_cons, joined_cons, List.append_assoc]

/-- The operands of a line as tokens, each with the separators in front of it. -/
def behind (t : String) (ts : List String) : List (List Char × List Char) :=
  ([' '], t.toList) :: ts.map fun u => ([',', ' '], u.toList)

lemma toList_writtenLine (mnemonic t : String) (ts : List String) :
    (writtenLine mnemonic (t :: ts)).toList = mnemonic.toList ++ joined (behind t ts) := by
  have hspace : " ".toList = [' '] := rfl
  rw [writtenLine, List.isEmpty_cons, if_neg Bool.false_ne_true, String.toList_append,
    String.toList_append, toList_intercalate_comma, hspace, behind, joined_cons, List.append_assoc]

lemma behind_spec {t : String} {ts : List String} (ht : IsCapitalWord t)
    (hts : ∀ u ∈ ts, IsCapitalWord u) :
    ∀ p ∈ behind t ts, (p.1 ≠ [] ∧ (∀ c ∈ p.1, isSeparator c = true) ∧ IsToken p.2) ∧
      ∀ c ∈ p.2, Text.isBlank c = false := by
  have hblank : ∀ {word : String}, IsCapitalWord word → ∀ c ∈ word.toList, Text.isBlank c = false :=
    fun hw c hc => (capital_plain (hw.2 c hc)).2.1
  intro p hp
  rcases List.mem_cons.mp hp with rfl | hp
  · exact ⟨⟨by simp, by simp [isSeparator], ht.isToken⟩, hblank ht⟩
  · obtain ⟨u, hu, rfl⟩ := List.mem_map.mp hp
    exact ⟨⟨by simp, by simp [isSeparator], (hts u hu).isToken⟩, hblank (hts u hu)⟩

lemma getLast?_joined {t : List Char} {rest : List (List Char × List Char)} {P : Char → Prop}
    (ht : ∀ c ∈ t.getLast?, P c) (hrest : ∀ p ∈ rest, p.2 ≠ [] ∧ ∀ c ∈ p.2, P c) :
    ∀ c ∈ (t ++ joined rest).getLast?, P c := by
  induction rest generalizing t with
  | nil => simpa using ht
  | cons p rest ih =>
      obtain ⟨hne, hp⟩ := hrest p List.mem_cons_self
      rw [joined_cons, ← List.append_assoc, ← List.append_assoc]
      refine ih (fun c hc => ?_) fun q hq => hrest q (List.mem_cons_of_mem _ hq)
      rw [List.getLast?_append_of_ne_nil _ hne] at hc
      exact hp c (List.mem_of_getLast? hc)

/-- **A written line falls into its mnemonic and its operands.** -/
theorem tokens_writtenLine {mnemonic : String} (hm : IsMnemonic mnemonic) {operands : List String}
    (ho : ∀ t ∈ operands, IsCapitalWord t) :
    tokens (writtenLine mnemonic operands) = mnemonic :: operands := by
  have htrim : Text.trim mnemonic.toList = mnemonic.toList := by
    have h := congrArg String.toList hm.trimmed
    rwa [Text.strip, String.toList_ofList] at h
  rcases operands with _ | ⟨t, ts⟩
  · show tokens mnemonic = [mnemonic]
    rw [tokens, tokenChars_eq, htrim, pieces_token hm.token]
    simp
  · obtain ⟨hfirst, hlast⟩ := ends_of_trim_eq_self htrim
    have hbehind := behind_spec (ho t List.mem_cons_self)
      fun u hu => ho u (List.mem_cons_of_mem _ hu)
    have hsep : ∀ p ∈ behind t ts, p.1 ≠ [] ∧ (∀ c ∈ p.1, isSeparator c = true) ∧ IsToken p.2 :=
      fun p hp => (hbehind p hp).1
    have hend : ∀ p ∈ behind t ts, p.2 ≠ [] ∧ ∀ c ∈ p.2, Text.isBlank c = false :=
      fun p hp => ⟨(hsep p hp).2.2.1, (hbehind p hp).2⟩
    have h := tokenChars_joined hm.token hsep hfirst (getLast?_joined hlast hend)
    rw [tokens, toList_writtenLine, h, List.map_cons, behind, List.map_cons, List.map_map]
    simp [Function.comp_def]

/-! ## Operands -/

lemma Slot.render_register {field : Field} {fields : List (Field × Nat)} {value : Nat}
    (h : fields.lookup field = some value) (hlt : value < 0x10000) :
    (Slot.register field).render fields = .ok ("V" ++ Numeral.ofNat value) := by
  simp [render, fill?, register, h, Numeral.isPrintable_of_lt hlt]

lemma Slot.render_immediate {field : Field} {fields : List (Field × Nat)} {value : Nat}
    (h : fields.lookup field = some value) (hlt : value < 0x10000) :
    (Slot.immediate field).render fields = .ok (Numeral.ofNat value) := by
  simp [render, fill?, immediate, h, Numeral.isPrintable_of_lt hlt]

/-- A word has a value in every field of a fit form, and the value is within the field. -/
lemma Form.WellFormed.exists_extract {form : Form} (h : form.WellFormed) (w : Word) {field : Field}
    (hf : field ∈ form.layout.map Prod.fst) :
    ∃ value, (form.extract w.value).lookup field = some value ∧
      (field, value) ∈ form.extract w.value ∧ value ≤ field.limit ∧ value < 0x10000 := by
  obtain ⟨p, hp, rfl⟩ := List.mem_map.mp hf
  have hle := Form.extractSpan_lt w.value p.2
  rw [h.widths p hp, ← Field.le_limit_iff] at hle
  exact ⟨_, h.regular.lookup_extract w.value hp, List.mem_map_of_mem hp, hle,
    Nat.lt_of_le_of_lt hle p.1.limit_lt⟩

/-- **The operand that a fit slot prints for a word spells the slot,** with the value that the word
    has in its field. -/
lemma Form.WellFormed.render_spells {form : Form} (h : form.WellFormed) (w : Word) {slot : Slot}
    (hs : slot ∈ form.slots) :
    ∃ text value, slot.render (form.extract w.value) = .ok text ∧ IsCapitalWord text ∧
      Convertible text ∧ slot.Spells text value ∧
      ∀ q ∈ value, q ∈ form.extract w.value ∧ q.2 ≤ q.1.limit := by
  cases h.slots slot hs with
  | register hf =>
      obtain ⟨value, hlookup, hmem, hle, hlt⟩ := h.exists_extract w hf
      refine ⟨_, _, Slot.render_register hlookup hlt, isCapitalWord_register value,
        convertible_register hlt, .register (isRegister_printed value), ?_⟩
      simpa using ⟨hmem, hle⟩
  | immediate hf =>
      obtain ⟨value, hlookup, hmem, hle, hlt⟩ := h.exists_extract w hf
      refine ⟨_, _, Slot.render_immediate hlookup hlt, isCapitalWord_literal value,
        convertible_literal hlt, .immediate (isLiteral_printed value), ?_⟩
      simpa using ⟨hmem, hle⟩
  | keyword hw =>
      exact ⟨_, none, rfl, isCapitalWord_keyword _ hw, convertible_keyword _ hw,
        .keyword (isCapitalWord_keyword _ hw).uppercase, by simp⟩
  | @fixedRegister index hindex =>
      exact ⟨_, none, rfl, isCapitalWord_register index, convertible_register hindex,
        .fixedRegister (isRegister_printed index), by simp⟩

lemma Form.WellFormed.mapM_render_spells {form : Form} (h : form.WellFormed) (w : Word)
    {slots : List Slot} (hsub : ∀ slot ∈ slots, slot ∈ form.slots) :
    ∃ texts values, slots.mapM (fun slot => slot.render (form.extract w.value)) = .ok texts ∧
      (∀ t ∈ texts, IsCapitalWord t ∧ Convertible t) ∧ Spells slots texts values ∧
      ∀ q ∈ values, q ∈ form.extract w.value ∧ q.2 ≤ q.1.limit := by
  induction slots with
  | nil => exact ⟨[], [], rfl, by simp, .nil, by simp⟩
  | cons slot slots ih =>
      obtain ⟨text, value, hr, hcap, hconv, hspell, hvalue⟩ :=
        h.render_spells w (hsub slot List.mem_cons_self)
      obtain ⟨texts, values, hrs, htexts, hspells, hvalues⟩ :=
        ih fun s hs => hsub s (List.mem_cons_of_mem _ hs)
      refine ⟨text :: texts, value.toList ++ values, ?_, ?_, .cons hspell hspells, ?_⟩
      · rw [List.mapM_cons, hr, hrs]
        rfl
      · exact List.forall_mem_cons.mpr ⟨⟨hcap, hconv⟩, htexts⟩
      · intro q hq
        rcases List.mem_append.mp hq with hq | hq
        · exact hvalue q (Option.mem_toList.mp hq)
        · exact hvalues q hq

/-- **The operands that a fit form prints for a word spell its slots.** -/
theorem Form.WellFormed.renderOperands_spells {form : Form} (h : form.WellFormed) (w : Word) :
    ∃ texts values, form.renderOperands w.value = .ok texts ∧
      (∀ t ∈ texts, IsCapitalWord t ∧ Convertible t) ∧ Spells form.slots texts values ∧
      ∀ q ∈ values, q ∈ form.extract w.value ∧ q.2 ≤ q.1.limit :=
  h.mapM_render_spells w fun _ hs => hs

/-- The operand that a slot prints for a value is the normal form of any token that brought it. -/
lemma Slot.Spells.render_eq {fields : List Field} {slot : Slot} (hslot : slot.WellFormed fields)
    {token : String} {value : Option (Field × Nat)} (h : slot.Spells token value)
    {placed : List (Field × Nat)} (hd : (placed.map Prod.fst).Nodup)
    (hv : ∀ q ∈ value, q ∈ placed ∧ q.2 < 0x10000) :
    slot.render placed = .ok (Operand.shape token).normal := by
  cases h with
  | register hr =>
      obtain ⟨hm, hlt⟩ := hv _ rfl
      rw [Operand.shape_eq_register_iff.mpr ⟨rfl, hr, hlt⟩]
      exact Slot.render_register (Form.lookup_of_mem hd hm) hlt
  | immediate hl =>
      obtain ⟨hm, hlt⟩ := hv _ rfl
      rw [Operand.shape_eq_immediate_iff.mpr ⟨rfl, hl, hlt⟩]
      exact Slot.render_immediate (Form.lookup_of_mem hd hm) hlt
  | keyword hu =>
      rw [Operand.shape_eq_keyword_iff.mpr ⟨hu, keyword_wellFormed_iff.mp hslot⟩]
      rfl
  | fixedRegister hr =>
      rw [Operand.shape_eq_register_iff.mpr ⟨rfl, hr, fixedRegister_wellFormed_iff.mp hslot⟩]
      rfl

lemma Spells.mapM_render_eq {slots : List Slot} {given : List String} {values : List (Field × Nat)}
    (h : Spells slots given values) {fields : List Field}
    (hslots : ∀ slot ∈ slots, slot.WellFormed fields) {placed : List (Field × Nat)}
    (hd : (placed.map Prod.fst).Nodup) (hv : ∀ q ∈ values, q ∈ placed ∧ q.2 < 0x10000) :
    slots.mapM (fun slot => slot.render placed) =
      .ok (given.map fun t => (Operand.shape t).normal) := by
  induction h with
  | nil => rfl
  | cons hs _ ih =>
      have hhead := hs.render_eq (hslots _ List.mem_cons_self) hd
        fun q hq => hv q (List.mem_append_left _ (Option.mem_toList.mpr hq))
      have htail := ih (fun s hm => hslots s (List.mem_cons_of_mem _ hm))
        fun q hq => hv q (List.mem_append_right _ hq)
      rw [List.mapM_cons, hhead, htail]
      rfl

/-- **A word written by some tokens is printed with these tokens in normal form.** -/
theorem Form.Writes.renderOperands_eq {form : Form} (hform : form.WellFormed)
    {given : List String} {values : List (Field × Nat)} {w : Word}
    (h : form.Writes given values w) :
    form.renderOperands w.value = .ok (given.map fun t => (Operand.shape t).normal) := by
  have hv : ∀ q ∈ values, q ∈ form.extract w.value ∧ q.2 < 0x10000 := by
    intro q hq
    exact ⟨h.placed q hq, Nat.lt_of_le_of_lt (h.within q hq) q.1.limit_lt⟩
  exact h.spelled.mapM_render_eq hform.slots (hform.regular.nodup_extract w.value) hv

/-! ## Raw words -/

lemma Hex.value?_lt {c : Char} {n : Nat} (h : Hex.value? c = some n) : n < 16 := by
  simp only [Hex.value?] at h
  split_ifs at h
  · have := Option.some.inj h; omega
  · have := Option.some.inj h; omega
  · have := Option.some.inj h; omega

/-- Four digits, put together, are the nibbles of a word. -/
lemma Word.nibbles_eq_iff {a b c d : Nat} (hb : b < 16) (hc : c < 16) (hd : d < 16) (w : Word) :
    w.nibbles = [a, b, c, d] ↔ 4096 * a + 256 * b + 16 * c + d = w.value := by
  have hw := w.value_lt
  simp only [nibbles, List.cons.injEq, and_true]
  omega

/-- Four characters spell a number exactly when they are its digits; no other text spells one. -/
lemma Word.hexValue?_eq_some_iff {cs : List Char} {w : Word} :
    hexValue? cs = some w.value ↔ cs.map Hex.value? = w.nibbles.map some := by
  rcases cs with _ | ⟨a, _ | ⟨b, _ | ⟨c, _ | ⟨d, _ | ⟨e, rest⟩⟩⟩⟩⟩
  · simp [hexValue?, nibbles]
  · simp [hexValue?, nibbles]
  · simp [hexValue?, nibbles]
  · simp [hexValue?, nibbles]
  · rcases ha : Hex.value? a with _ | a'
    · simp [hexValue?, nibbles, ha]
    rcases hb : Hex.value? b with _ | b'
    · simp [hexValue?, nibbles, ha, hb]
    rcases hc : Hex.value? c with _ | c'
    · simp [hexValue?, nibbles, ha, hb, hc]
    rcases hd : Hex.value? d with _ | d'
    · simp [hexValue?, nibbles, ha, hb, hc, hd]
    have hnibbles := nibbles_eq_iff (a := a') (Hex.value?_lt hb) (Hex.value?_lt hc)
      (Hex.value?_lt hd) w
    have hmap : [a, b, c, d].map Hex.value? = [a', b', c', d'].map some := by
      simp [ha, hb, hc, hd]
    rw [hmap, (List.map_injective_iff.mpr (Option.some_injective _)).eq_iff,
      eq_comm (b := w.nibbles), hnibbles]
    simp [hexValue?, ha, hb, hc, hd]
  · simp [hexValue?, nibbles]

/-- **A text is read as a word exactly when its characters are the four digits of the word,** in
    either case. -/
theorem Word.ofHex_eq_ok_iff {text : String} {w : Word} :
    Word.ofHex text = .ok w ↔ text.toList.map Hex.value? = w.nibbles.map some := by
  rw [← hexValue?_eq_some_iff, ofHex]
  split
  · next v hv =>
      rw [hv, Option.some.injEq]
      split_ifs with hlt
      · rw [Except.ok.injEq, Word.mk.injEq]
      · simp only [false_iff]
        rintro rfl
        exact hlt w.value_lt
  · next hnone => simp [hnone]

lemma Word.nibble_lt {w : Word} {n : Nat} (h : n ∈ w.nibbles) : n < 16 := by
  have hw := w.value_lt
  simp only [nibbles, List.mem_cons, List.not_mem_nil, or_false] at h
  omega

lemma Word.ofHex_hex (w : Word) : Word.ofHex w.hex = .ok w := by
  rw [ofHex_eq_ok_iff, hex, String.toList_ofList, List.map_map]
  exact List.map_congr_left fun n hn => Hex.value?_digit (nibble_lt hn)

lemma isCapitalWord_hex (w : Word) : IsCapitalWord w.hex := by
  have hdigit : ∀ m : Fin 16, ((Hex.digit m).isUpper || (Hex.digit m).isDigit) = true := by decide
  refine ⟨by simp [Word.hex, Word.nibbles], fun c hc => ?_⟩
  rw [Word.hex, String.toList_ofList, List.mem_map] at hc
  obtain ⟨n, hn, rfl⟩ := hc
  exact hdigit ⟨n, Word.nibble_lt hn⟩

/-- **The printed digits of a word are a line of one token.** -/
lemma tokens_hex (w : Word) : tokens w.hex = [w.hex] ∧ Text.strip w.hex = w.hex := by
  have hcap := isCapitalWord_hex w
  have hblank : ∀ c ∈ w.hex.toList, Text.isBlank c = false :=
    fun c hc => (capital_plain (hcap.2 c hc)).2.1
  have htrim : Text.trim w.hex.toList = w.hex.toList :=
    trim_eq_self (fun c hc => hblank c (List.mem_of_head? hc))
      fun c hc => hblank c (List.mem_of_getLast? hc)
  rw [tokens, tokenChars_eq, Text.strip, htrim, pieces_token hcap.isToken]
  simp

/-- A hexadecimal digit has its value in capitals as well. -/
lemma Hex.exists_upperChar {c : Char} {n : Nat} (h : value? c = some n) :
    ∃ d, Text.upperChar c = [d] ∧ value? d = some n := by
  have hsmall : c.toNat < 128 := by
    simp only [value?] at h
    split_ifs at h <;> omega
  have hall : ∀ m : Fin 128, (value? (Char.ofNat m)).isSome = true →
      value? (Char.ofNat m).toUpper = value? (Char.ofNat m) := by decide
  have hc : Char.ofNat c.toNat = c := Char.ofNat_toNat c
  have hupper := hall ⟨c.toNat, hsmall⟩
  simp only [hc, h, Option.isSome_some, forall_const] at hupper
  exact ⟨c.toUpper, Text.upperChar_ascii hsmall, hupper⟩

/-- Four hexadecimal digits are four hexadecimal digits in capitals. -/
lemma Word.ofHex_uppercase {text : String} {w : Word} (h : Word.ofHex text = .ok w) :
    Word.ofHex (Text.uppercase text) = .ok w := by
  rw [ofHex_eq_ok_iff] at h ⊢
  rw [← h, toList_uppercase]
  have hsome : ∀ c ∈ text.toList, ∃ n, Hex.value? c = some n := by
    intro c hc
    have hmem : Hex.value? c ∈ w.nibbles.map some := h ▸ List.mem_map_of_mem hc
    obtain ⟨n, -, hn⟩ := List.mem_map.mp hmem
    exact ⟨n, hn.symm⟩
  generalize text.toList = cs at hsome
  induction cs with
  | nil => rfl
  | cons c cs ih =>
      rw [List.forall_mem_cons] at hsome
      obtain ⟨n, hn⟩ := hsome.1
      obtain ⟨d, hd, hvalue⟩ := Hex.exists_upperChar hn
      rw [List.flatMap_cons, hd, List.singleton_append, List.map_cons, List.map_cons, ih hsome.2,
        hvalue, hn]

/-- A line that is a raw word has one token. -/
lemma tokens_of_ofHex {source : String} {w : Word} (h : Word.ofHex (Text.strip source) = .ok w) :
    tokens source = [Text.strip source] := by
  rw [Word.ofHex_eq_ok_iff, Text.strip, String.toList_ofList] at h
  have hsome : ∀ c ∈ Text.trim source.toList, isSeparator c = false := by
    intro c hc
    have hmem : Hex.value? c ∈ w.nibbles.map some := h ▸ List.mem_map_of_mem hc
    obtain ⟨n, -, hn⟩ := List.mem_map.mp hmem
    rw [← Bool.not_eq_true, isSeparator]
    intro hsep
    simp only [Bool.or_eq_true, beq_iff_eq] at hsep
    rcases hsep with (rfl | rfl) | rfl <;> cases hn
  have hne : Text.trim source.toList ≠ [] := by
    intro hnil
    rw [hnil] at h
    simp [Word.nibbles] at h
  rw [tokens, tokenChars_eq, pieces_token ⟨hne, hsome⟩]
  rfl

/-- **No row that can be written takes a raw word for its mnemonic.** -/
theorem Table.isMnemonic_of_ofHex {table : Table} (h : ∀ form ∈ table, IsMnemonic form.mnemonic)
    {source first : String} {given : List String} (ht : tokens source = first :: given)
    {w : Word} (hword : Word.ofHex (Text.strip source) = .ok w) :
    table.isMnemonic first = false := by
  obtain ⟨rfl, -⟩ := List.cons.inj (ht.symm.trans (tokens_of_ofHex hword))
  rw [← Bool.not_eq_true, isMnemonic_iff]
  rintro ⟨form, hm, hname⟩
  have hdigits := Word.ofHex_uppercase hword
  rw [Word.ofHex, ← hname, (h form hm).notWord] at hdigits
  cases hdigits

/-- **A fit table reads the printed digits of a word as the word.** -/
theorem Table.WellFormed.lineWord_hex {table : Table} (h : table.WellFormed) (w : Word) :
    table.lineWord w.hex = .ok (w, true) := by
  have hword : Word.ofHex (Text.strip w.hex) = .ok w := by rw [(tokens_hex w).2, w.ofHex_hex]
  have hno := isMnemonic_of_ofHex (fun form hm => (h.forms form hm).mnemonic) (tokens_hex w).1 hword
  rw [lineWord_raw (tokens_hex w).1 hno, hword]

end Chip8
