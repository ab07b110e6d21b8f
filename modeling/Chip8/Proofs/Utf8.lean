import Chip8.Text.Utf8
import Mathlib.Tactic.SplitIfs

/-!
# Decoding UTF-8

Decoding undoes encoding, and it succeeds on nothing else: `decode_eq_ok_iff`.  Hence a file is
no UTF-8 exactly if it is not what some text is encoded as (`exists_fault_iff`), and a text is read
back from its file up to its line ends (`readText_encode`).

* `opening_two` and its siblings are the bytes that can begin a sequence of some length, with the
  bounds that this puts on the second byte.
* `decodeFrom_encodeChar` is the step in one direction, `exists_of_decodeFrom` in the other: a
  decoding that succeeds begins with the encoding of a character.

The encoding is that of the standard library (`encode_eq`).
-/

namespace Chip8.Utf8

/-! ## Bytes and characters -/

lemma toNat_valid (c : Char) : c.toNat < 0xD800 ∨ 0xDFFF < c.toNat ∧ c.toNat < 0x110000 := c.valid

lemma toNat_ofNat {n : Nat} (h : n < 0xD800 ∨ 0xDFFF < n ∧ n < 0x110000) :
    (Char.ofNat n).toNat = n := by
  rw [Char.ofNat, dif_pos h]
  rfl

lemma toNat_byte {n : Nat} (h : n < 256) : (UInt8.ofNat n).toNat = n := by
  rw [UInt8.toNat_ofNat', Nat.mod_eq_of_lt h]

lemma byte_eq (byte : UInt8) {n : Nat} (h : n = byte.toNat) : UInt8.ofNat n = byte := by
  rw [h, UInt8.ofNat_toNat]

lemma toNat_tail (n : Nat) : (encodeChar.tail n).toNat = 0x80 + n % 64 :=
  toNat_byte (by omega)

/-- The encoding of a character is that of the standard library. -/
lemma encodeChar_eq (c : Char) : encodeChar c = String.utf8EncodeChar c := by
  have hvalid := toNat_valid c
  have hval : c.val.toNat = c.toNat := rfl
  simp only [encodeChar, String.utf8EncodeChar, encodeChar.tail, hval, Nat.add_comm]
  split_ifs <;> first | omega | rfl | (congr 3; omega)

/-- **The encoding of a text is that of the standard library.** -/
theorem encode_eq (text : String) : encode text = text.toByteArray.data.toList := by
  rw [← String.utf8Encode_toList, List.utf8Encode, List.toList_data_toByteArray, encode,
    funext encodeChar_eq]

lemma encode_append (first second : String) :
    encode (first ++ second) = encode first ++ encode second := by
  rw [encode, String.toList_append, List.flatMap_append]
  rfl

/-! ## The first byte of a sequence -/

variable {byte : UInt8}

lemma opening_one (h : byte.toNat < 0x80) : opening byte = .whole (Char.ofNat byte.toNat) :=
  if_pos h

lemma opening_two (h : 0xC2 ≤ byte.toNat ∧ byte.toNat < 0xE0) :
    opening byte = .sequence 1 0x80 0xBF (byte.toNat - 0xC0) := by
  rw [opening, if_neg (by omega), if_neg (by omega), if_pos (by omega)]

lemma opening_three (h : 0xE0 ≤ byte.toNat ∧ byte.toNat < 0xF0) :
    opening byte = .sequence 2 (if byte.toNat = 0xE0 then 0xA0 else 0x80)
      (if byte.toNat = 0xED then 0x9F else 0xBF) (byte.toNat - 0xE0) := by
  rw [opening, if_neg (by omega), if_neg (by omega), if_neg (by omega)]
  by_cases hfirst : byte.toNat = 0xE0
  · rw [if_pos hfirst, if_pos hfirst, if_neg (by omega), hfirst]
  by_cases hlast : byte.toNat = 0xED
  · rw [if_neg hfirst, if_neg hfirst, if_pos hlast, if_pos hlast, hlast]
  · rw [if_neg hfirst, if_neg hfirst, if_neg hlast, if_neg hlast, if_pos (by omega)]

lemma opening_four (h : 0xF0 ≤ byte.toNat ∧ byte.toNat < 0xF5) :
    opening byte = .sequence 3 (if byte.toNat = 0xF0 then 0x90 else 0x80)
      (if byte.toNat = 0xF4 then 0x8F else 0xBF) (byte.toNat - 0xF0) := by
  rw [opening, if_neg (by omega), if_neg (by omega), if_neg (by omega), if_neg (by omega),
    if_neg (by omega), if_neg (by omega)]
  by_cases hfirst : byte.toNat = 0xF0
  · rw [if_pos hfirst, if_pos hfirst, if_neg (by omega), hfirst]
  by_cases hlast : byte.toNat = 0xF4
  · rw [if_neg hfirst, if_neg hfirst, if_neg (by omega), if_pos hlast, if_pos hlast, hlast]
  · rw [if_neg hfirst, if_neg hfirst, if_neg hlast, if_pos (by omega), if_neg hlast]

lemma opening_nothing (h : 0x80 ≤ byte.toNat ∧ byte.toNat < 0xC2 ∨ 0xF5 ≤ byte.toNat) :
    opening byte = .nothing := by
  rw [opening, if_neg (by omega)]
  rcases h with h | h
  · rw [if_pos h.2]
  · rw [if_neg (by omega), if_neg (by omega), if_neg (by omega), if_neg (by omega),
      if_neg (by omega), if_neg (by omega), if_neg (by omega), if_neg (by omega)]

/-! ## One step of a decoding -/

variable {position start length missing low high bits : Nat} {first : UInt8}
  {rest : List UInt8}

lemma decodeFrom_one (h : byte.toNat < 0x80) : decodeFrom position none (byte :: rest) =
    (decodeFrom (position + 1) none rest).map (Char.ofNat byte.toNat :: ·) := by
  rw [decodeFrom, opening_one h]

lemma decodeFrom_sequence (h : opening byte = .sequence missing low high bits) :
    decodeFrom position none (byte :: rest) =
      decodeFrom (position + 1) (some ⟨position, byte, 1, missing, low, high, bits⟩) rest := by
  rw [decodeFrom, h]

lemma decodeFrom_more (h : low ≤ byte.toNat ∧ byte.toNat ≤ high) :
    decodeFrom position (some ⟨start, first, length, missing + 2, low, high, bits⟩)
        (byte :: rest) =
      decodeFrom (position + 1) (some ⟨start, first, length + 1, missing + 1, 0x80, 0xBF,
        64 * bits + (byte.toNat - 0x80)⟩) rest := by
  simp only [decodeFrom, if_pos h]
  rfl

lemma decodeFrom_last (h : low ≤ byte.toNat ∧ byte.toNat ≤ high) :
    decodeFrom position (some ⟨start, first, length, 1, low, high, bits⟩) (byte :: rest) =
      (decodeFrom (position + 1) none rest).map
        (Char.ofNat (64 * bits + (byte.toNat - 0x80)) :: ·) := by
  simp only [decodeFrom, if_pos h, if_pos]

section Characters

variable (position : Nat) {c : Char} (rest : List UInt8)

lemma decodeFrom_char_two (h : 0x80 ≤ c.toNat ∧ c.toNat < 0x800) :
    decodeFrom position none (encodeChar c ++ rest) =
      (decodeFrom (position + 2) none rest).map (c :: ·) := by
  have hlead : (UInt8.ofNat (0xC0 + c.toNat / 64)).toNat = 0xC0 + c.toNat / 64 :=
    toNat_byte (by omega)
  have htail := toNat_tail c.toNat
  have hbits : 64 * (0xC0 + c.toNat / 64 - 0xC0) + (0x80 + c.toNat % 64 - 0x80) = c.toNat := by
    omega
  rw [encodeChar, if_neg (by omega), if_pos h.2, List.cons_append, List.cons_append,
    List.nil_append, decodeFrom_sequence (opening_two (by omega)), decodeFrom_last (by omega)]
  simp only [hlead, htail, hbits, Char.ofNat_toNat]

lemma decodeFrom_char_three (h : 0x800 ≤ c.toNat ∧ c.toNat < 0x10000) :
    decodeFrom position none (encodeChar c ++ rest) =
      (decodeFrom (position + 3) none rest).map (c :: ·) := by
  have hvalid := toNat_valid c
  have hlead : (UInt8.ofNat (0xE0 + c.toNat / 4096)).toNat = 0xE0 + c.toNat / 4096 :=
    toNat_byte (by omega)
  have hfirst := toNat_tail (c.toNat / 64)
  have hsecond := toNat_tail c.toNat
  have hbits : 64 * (64 * (0xE0 + c.toNat / 4096 - 0xE0) + (0x80 + c.toNat / 64 % 64 - 0x80)) +
      (0x80 + c.toNat % 64 - 0x80) = c.toNat := by omega
  rw [encodeChar, if_neg (by omega), if_neg (by omega), if_pos h.2, List.cons_append,
    List.cons_append, List.cons_append, List.nil_append,
    decodeFrom_sequence (opening_three (by omega)), decodeFrom_more (by split_ifs <;> omega),
    decodeFrom_last (by omega)]
  simp only [hlead, hfirst, hsecond, hbits, Char.ofNat_toNat]

lemma decodeFrom_char_four (h : 0x10000 ≤ c.toNat) :
    decodeFrom position none (encodeChar c ++ rest) =
      (decodeFrom (position + 4) none rest).map (c :: ·) := by
  have hvalid := toNat_valid c
  have hlead : (UInt8.ofNat (0xF0 + c.toNat / 262144)).toNat = 0xF0 + c.toNat / 262144 :=
    toNat_byte (by omega)
  have hfirst := toNat_tail (c.toNat / 4096)
  have hsecond := toNat_tail (c.toNat / 64)
  have hthird := toNat_tail c.toNat
  have hbits : 64 * (64 * (64 * (0xF0 + c.toNat / 262144 - 0xF0) +
      (0x80 + c.toNat / 4096 % 64 - 0x80)) + (0x80 + c.toNat / 64 % 64 - 0x80)) +
      (0x80 + c.toNat % 64 - 0x80) = c.toNat := by omega
  rw [encodeChar, if_neg (by omega), if_neg (by omega), if_neg (by omega), List.cons_append,
    List.cons_append, List.cons_append, List.cons_append, List.nil_append,
    decodeFrom_sequence (opening_four (by omega)), decodeFrom_more (by split_ifs <;> omega),
    decodeFrom_more (by omega), decodeFrom_last (by omega)]
  simp only [hlead, hfirst, hsecond, hthird, hbits, Char.ofNat_toNat]

end Characters

/-- **A character is decoded from its encoding,** whatever follows. -/
lemma decodeFrom_encodeChar (position : Nat) (c : Char) (rest : List UInt8) :
    decodeFrom position none (encodeChar c ++ rest) =
      (decodeFrom (position + (encodeChar c).length) none rest).map (c :: ·) := by
  by_cases h1 : c.toNat < 0x80
  · have hlead : (UInt8.ofNat c.toNat).toNat = c.toNat := toNat_byte (by omega)
    rw [encodeChar, if_pos h1, List.cons_append, List.nil_append, decodeFrom_one (by omega), hlead,
      Char.ofNat_toNat]
    rfl
  by_cases h2 : c.toNat < 0x800
  · rw [decodeFrom_char_two position rest ⟨by omega, h2⟩, encodeChar, if_neg h1, if_pos h2]
    rfl
  by_cases h3 : c.toNat < 0x10000
  · rw [decodeFrom_char_three position rest ⟨by omega, h3⟩, encodeChar, if_neg h1, if_neg h2,
      if_pos h3]
    rfl
  · rw [decodeFrom_char_four position rest (by omega), encodeChar, if_neg h1, if_neg h2,
      if_neg h3]
    rfl

variable {bytes : List UInt8} {cs : List Char}

lemma exists_of_map_cons {c : Char} {e : Except Fault (List Char)} (h : e.map (c :: ·) = .ok cs) :
    ∃ cs', cs = c :: cs' ∧ e = .ok cs' := by
  cases e with
  | error fault => cases h
  | ok cs' => exact ⟨cs', (Except.ok.inj h).symm, rfl⟩

lemma exists_of_more
    (h : decodeFrom position (some ⟨start, first, length, missing + 2, low, high, bits⟩) bytes =
      .ok cs) :
    ∃ byte rest, bytes = byte :: rest ∧ low ≤ byte.toNat ∧ byte.toNat ≤ high ∧
      decodeFrom (position + 1) (some ⟨start, first, length + 1, missing + 1, 0x80, 0xBF,
        64 * bits + (byte.toNat - 0x80)⟩) rest = .ok cs := by
  rcases bytes with _ | ⟨byte, rest⟩
  · cases h
  by_cases hb : low ≤ byte.toNat ∧ byte.toNat ≤ high
  · rw [decodeFrom_more hb] at h
    exact ⟨byte, rest, rfl, hb.1, hb.2, h⟩
  · simp only [decodeFrom, if_neg hb] at h
    cases h

lemma exists_of_last
    (h : decodeFrom position (some ⟨start, first, length, 1, low, high, bits⟩) bytes = .ok cs) :
    ∃ byte rest cs', bytes = byte :: rest ∧ low ≤ byte.toNat ∧ byte.toNat ≤ high ∧
      cs = Char.ofNat (64 * bits + (byte.toNat - 0x80)) :: cs' ∧
      decodeFrom (position + 1) none rest = .ok cs' := by
  rcases bytes with _ | ⟨byte, rest⟩
  · cases h
  by_cases hb : low ≤ byte.toNat ∧ byte.toNat ≤ high
  · rw [decodeFrom_last hb] at h
    obtain ⟨cs', hcs, hrest⟩ := exists_of_map_cons h
    exact ⟨byte, rest, cs', rfl, hb.1, hb.2, hcs, hrest⟩
  · simp only [decodeFrom, if_neg hb] at h
    cases h

lemma encodeChar_one (h : byte.toNat < 0x80) : encodeChar (Char.ofNat byte.toNat) = [byte] := by
  rw [encodeChar, toNat_ofNat (by omega), if_pos h, UInt8.ofNat_toNat]

section Sequences

variable {a b c d : UInt8}

lemma encodeChar_two (ha : 0xC2 ≤ a.toNat ∧ a.toNat < 0xE0)
    (hb : 0x80 ≤ b.toNat ∧ b.toNat ≤ 0xBF) :
    encodeChar (Char.ofNat (64 * (a.toNat - 0xC0) + (b.toNat - 0x80))) = [a, b] := by
  rw [encodeChar, toNat_ofNat (by omega), if_neg (by omega), if_pos (by omega), encodeChar.tail,
    byte_eq a (by omega), byte_eq b (by omega)]

lemma encodeChar_three (ha : 0xE0 ≤ a.toNat ∧ a.toNat < 0xF0)
    (hlow : (if a.toNat = 0xE0 then 0xA0 else 0x80) ≤ b.toNat)
    (hhigh : b.toNat ≤ if a.toNat = 0xED then 0x9F else 0xBF)
    (hc : 0x80 ≤ c.toNat ∧ c.toNat ≤ 0xBF) :
    encodeChar (Char.ofNat (64 * (64 * (a.toNat - 0xE0) + (b.toNat - 0x80)) +
      (c.toNat - 0x80))) = [a, b, c] := by
  have hb : 0x80 ≤ b.toNat ∧ b.toNat ≤ 0xBF ∧ (a.toNat = 0xE0 → 0xA0 ≤ b.toNat) ∧
      (a.toNat = 0xED → b.toNat ≤ 0x9F) := by
    split_ifs at hlow hhigh <;> omega
  rw [encodeChar, toNat_ofNat (by omega), if_neg (by omega), if_neg (by omega), if_pos (by omega),
    encodeChar.tail, encodeChar.tail, byte_eq a (by omega),
    byte_eq b (by omega), byte_eq c (by omega)]

lemma encodeChar_four (ha : 0xF0 ≤ a.toNat ∧ a.toNat < 0xF5)
    (hlow : (if a.toNat = 0xF0 then 0x90 else 0x80) ≤ b.toNat)
    (hhigh : b.toNat ≤ if a.toNat = 0xF4 then 0x8F else 0xBF)
    (hc : 0x80 ≤ c.toNat ∧ c.toNat ≤ 0xBF) (hd : 0x80 ≤ d.toNat ∧ d.toNat ≤ 0xBF) :
    encodeChar (Char.ofNat (64 * (64 * (64 * (a.toNat - 0xF0) + (b.toNat - 0x80)) +
      (c.toNat - 0x80)) + (d.toNat - 0x80))) = [a, b, c, d] := by
  have hb : 0x80 ≤ b.toNat ∧ b.toNat ≤ 0xBF ∧ (a.toNat = 0xF0 → 0x90 ≤ b.toNat) ∧
      (a.toNat = 0xF4 → b.toNat ≤ 0x8F) := by
    split_ifs at hlow hhigh <;> omega
  rw [encodeChar, toNat_ofNat (by omega), if_neg (by omega), if_neg (by omega), if_neg (by omega),
    encodeChar.tail, encodeChar.tail, encodeChar.tail, byte_eq a (by omega),
    byte_eq b (by omega), byte_eq c (by omega),
    byte_eq d (by omega)]

end Sequences

/-- **A decoding that succeeds begins with a character.** -/
lemma exists_of_decodeFrom (h : decodeFrom position none (byte :: rest) = .ok cs) :
    ∃ c tail cs', byte :: rest = encodeChar c ++ tail ∧ cs = c :: cs' ∧
      decodeFrom (position + (encodeChar c).length) none tail = .ok cs' := by
  have hbegins : ∀ {front tail c cs'}, encodeChar c = front → cs = c :: cs' →
      decodeFrom (position + front.length) none tail = .ok cs' →
      ∃ c tail' cs', front ++ tail = encodeChar c ++ tail' ∧ cs = c :: cs' ∧
        decodeFrom (position + (encodeChar c).length) none tail' = .ok cs' := by
    rintro front tail c cs' rfl hcs hrest
    exact ⟨c, tail, cs', rfl, hcs, hrest⟩
  by_cases h1 : byte.toNat < 0x80
  · rw [decodeFrom_one h1] at h
    obtain ⟨cs', hcs, hrest⟩ := exists_of_map_cons h
    exact hbegins (encodeChar_one h1) hcs hrest
  by_cases h2 : 0xC2 ≤ byte.toNat ∧ byte.toNat < 0xE0
  · rw [decodeFrom_sequence (opening_two h2)] at h
    obtain ⟨b, tail, cs', rfl, hlow, hhigh, hcs, hrest⟩ := exists_of_last h
    exact hbegins (encodeChar_two h2 ⟨hlow, hhigh⟩) hcs hrest
  by_cases h3 : 0xE0 ≤ byte.toNat ∧ byte.toNat < 0xF0
  · rw [decodeFrom_sequence (opening_three h3)] at h
    obtain ⟨b, rest', rfl, hlow, hhigh, h⟩ := exists_of_more h
    obtain ⟨b', tail, cs', rfl, hlow', hhigh', hcs, hrest⟩ := exists_of_last h
    exact hbegins (encodeChar_three h3 hlow hhigh ⟨hlow', hhigh'⟩) hcs hrest
  by_cases h4 : 0xF0 ≤ byte.toNat ∧ byte.toNat < 0xF5
  · rw [decodeFrom_sequence (opening_four h4)] at h
    obtain ⟨b, rest', rfl, hlow, hhigh, h⟩ := exists_of_more h
    obtain ⟨b', rest', rfl, hlow', hhigh', h⟩ := exists_of_more h
    obtain ⟨b'', tail, cs', rfl, hlow'', hhigh'', hcs, hrest⟩ := exists_of_last h
    exact hbegins (encodeChar_four h4 hlow hhigh ⟨hlow', hhigh'⟩ ⟨hlow'', hhigh''⟩) hcs hrest
  · rw [decodeFrom, opening_nothing (by omega)] at h
    cases h

/-! ## Whole decodings -/

lemma encodeChar_ne_nil (c : Char) : encodeChar c ≠ [] := by
  simp only [encodeChar]
  split_ifs <;> exact List.cons_ne_nil _ _

lemma decodeFrom_flatMap (position : Nat) (cs : List Char) :
    decodeFrom position none (cs.flatMap encodeChar) = .ok cs := by
  induction cs generalizing position with
  | nil => rfl
  | cons c cs ih =>
      rw [List.flatMap_cons, decodeFrom_encodeChar, ih]
      rfl

/-- **What is decoded from bytes is encoded as these bytes.** -/
lemma flatMap_of_decodeFrom (h : decodeFrom position none bytes = .ok cs) :
    cs.flatMap encodeChar = bytes := by
  induction hlength : bytes.length using Nat.strongRecOn generalizing position bytes cs with
  | ind n ih =>
      rcases bytes with _ | ⟨byte, rest⟩
      · cases h
        rfl
      · obtain ⟨c, tail, cs', hsplit, rfl, hrest⟩ := exists_of_decodeFrom h
        have hlt : tail.length < n := by
          rw [← hlength, hsplit, List.length_append]
          have := List.length_pos_iff.mpr (encodeChar_ne_nil c)
          omega
        rw [List.flatMap_cons, ih _ hlt hrest rfl, hsplit]

/-- **Decoding undoes encoding, and succeeds on nothing else.** -/
theorem decode_eq_ok_iff : decode bytes = .ok cs ↔ cs.flatMap encodeChar = bytes := by
  constructor
  · exact flatMap_of_decodeFrom
  · rintro rfl
    exact decodeFrom_flatMap 0 cs

/-- **Bytes are refused exactly if no text is encoded as them.** -/
theorem exists_fault_iff :
    (∃ fault, decode bytes = .error fault) ↔ ∀ text, encode text ≠ bytes := by
  constructor
  · rintro ⟨fault, hfault⟩ text htext
    rw [decode_eq_ok_iff.mpr htext] at hfault
    cases hfault
  · intro h
    cases hdecode : decode bytes with
    | error fault => exact ⟨fault, rfl⟩
    | ok cs =>
        refine absurd ?_ (h (String.ofList cs))
        rw [encode, String.toList_ofList]
        exact decode_eq_ok_iff.mp hdecode

/-! ## Source files -/

/-- A text without carriage returns keeps its line ends. -/
lemma normalizeBreaks_eq {cs : List Char} (h : '\r' ∉ cs) : normalizeBreaks cs = cs := by
  fun_induction normalizeBreaks cs with
  | case1 => rfl
  | case2 rest ih => simp at h
  | case3 rest hne ih => simp at h
  | case4 c rest hne hne' ih => rw [ih fun hmem => h (List.mem_cons_of_mem _ hmem)]

lemma readText_eq_error_iff {fault : Fault} :
    readText bytes = .error fault ↔ decode bytes = .error fault := by
  rw [readText]
  cases decode bytes with
  | ok cs => exact ⟨nofun, nofun⟩
  | error other => simp only [Except.map, Except.error.injEq]

/-- **A text is read back from its file with its line ends normalized.** -/
theorem readText_encode (text : String) :
    readText (encode text) = .ok (String.ofList (normalizeBreaks text.toList)) := by
  have hdecode : decode (encode text) = .ok text.toList := decode_eq_ok_iff.mpr rfl
  rw [readText, hdecode]
  rfl

lemma readText_encode_eq {text : String} (h : '\r' ∉ text.toList) :
    readText (encode text) = .ok text := by
  rw [readText_encode, normalizeBreaks_eq h, String.ofList_toList]

end Chip8.Utf8
