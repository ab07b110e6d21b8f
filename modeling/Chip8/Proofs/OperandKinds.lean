import Chip8.Proofs.Classification
import Mathlib.Data.List.Perm.Basic

/-!
# The kinds of operand tokens

This file says for every token what it is taken for, and that nothing hangs on the order in which
the kinds are tried.

* `IsWordNumeral` are the digits that are read as a number: not too many to be converted, and of a
  value that fits a word.  `readDigits_eq_some_iff` and `readDigits_eq_none_iff` are about them.
* `Operand.classify_eq_ok_iff` takes the failures away: a token that is not overlong has the kind of
  its shape, and the shapes are known.
* `Operand.Kind.Fits` is the shape of a kind without any bound on its numeral.  A token fits one
  kind at most (`Operand.Kind.Fits.unique`), since no keyword begins with a digit or with the letter
  of a register, and a test says nothing about a token that does not fit.  Therefore tests may be
  exchanged (`Operand.classifyIn_perm`).
* `upperChar_eq_sigil_iff` looks through the upper-case mappings: no other character than the two
  that are asked for becomes the letter of a register.
-/

namespace Chip8

/-! ## Numbers -/

/-- **Digits that are read as a number:** a numeral that is not too long, of a value that fits a
    word. -/
def IsWordNumeral (cs : List Char) (v : Nat) : Prop :=
  Numeral.isNumeral cs = true ∧ cs.length ≤ Numeral.maxDigits ∧ Numeral.value cs = v ∧ v < 0x10000

lemma isWordNumeral_toDigits {v : Nat} (h : v < 0x10000) : IsWordNumeral (Nat.toDigits 10 v) v :=
  ⟨Numeral.isNumeral_toDigits v, Numeral.length_toDigits_le h, Numeral.value_toDigits v, h⟩

lemma readDigits_eq_some_iff {cs : List Char} {v : Nat} :
    readDigits cs = .ok (some v) ↔ IsWordNumeral cs v := by
  rw [readDigits, IsWordNumeral]
  split_ifs with hnumeral hlen
  · rw [Except.ok.injEq, Option.filter_eq_some_iff, Option.some.injEq]
    simp only [hnumeral, hlen, true_and, decide_eq_true_eq]
  · simp [hlen]
  · simp [hnumeral]

/-- Digits are no number if they are none that is read and not too many either. -/
lemma readDigits_eq_none_iff {cs : List Char} :
    readDigits cs = .ok none ↔ (∀ v, ¬ IsWordNumeral cs v) ∧
      ¬ (Numeral.isNumeral cs = true ∧ Numeral.maxDigits < cs.length) := by
  constructor
  · intro h
    constructor
    · intro v hv
      rw [readDigits_eq_some_iff.mpr hv] at h
      cases h
    · rintro ⟨hnumeral, hlen⟩
      rw [readDigits_eq_error_iff.mpr ⟨hnumeral, hlen, rfl⟩] at h
      cases h
  · rintro ⟨hnone, hshort⟩
    cases hread : readDigits cs with
    | error fault =>
        obtain ⟨hnumeral, hlen, -⟩ := readDigits_eq_error_iff.mp hread
        exact absurd ⟨hnumeral, hlen⟩ hshort
    | ok read =>
        cases read with
        | none => rfl
        | some v => exact absurd (readDigits_eq_some_iff.mp hread) (hnone v)

lemma isRegisterSigil_iff {c : Char} : isRegisterSigil c = true ↔ c = 'V' ∨ c = 'v' := by
  rw [isRegisterSigil, Bool.or_eq_true, beq_iff_eq, beq_iff_eq]

/-! ## Overlong tokens -/

lemma overlong_numeral_iff {token : String} (h : Numeral.isNumeral token.toList = true)
    {digits : Nat} : Overlong token digits ↔
      token.toList.length = digits ∧ Numeral.maxDigits < digits := by
  constructor
  · rintro ⟨numeral, -, hlength, hlong, htoken | ⟨sigil, hsigil, htoken⟩⟩
    · exact ⟨htoken ▸ hlength, hlong⟩
    · -- The letter of a register is no digit.
      have hdigit := (Numeral.isNumeral_iff.mp h).2 sigil (htoken ▸ List.mem_cons_self)
      rw [isRegisterSigil_of_isDigit hdigit] at hsigil
      cases hsigil
  · rintro ⟨hlength, hlong⟩
    exact ⟨token.toList, h, hlength, hlong, .inl rfl⟩

lemma overlong_register_iff {token : String} {sigil : Char} {rest : List Char}
    (htoken : token.toList = sigil :: rest) (hsigil : isRegisterSigil sigil = true)
    (h : Numeral.isNumeral rest = true) {digits : Nat} : Overlong token digits ↔
      rest.length = digits ∧ Numeral.maxDigits < digits := by
  constructor
  · rintro ⟨numeral, hnumeral, hlength, hlong, hwhole | ⟨other, -, hother⟩⟩
    · have hregister : IsRegister token (Numeral.value rest) :=
        ⟨sigil, rest, htoken, hsigil, h, rfl⟩
      rw [← hwhole, hregister.not_isNumeral] at hnumeral
      cases hnumeral
    · obtain ⟨-, rfl⟩ := List.cons.inj (htoken.symm.trans hother)
      exact ⟨hlength, hlong⟩
  · rintro ⟨hlength, hlong⟩
    exact ⟨rest, h, hlength, hlong, .inr ⟨sigil, hsigil, htoken⟩⟩

namespace Operand

/-! ## Shapes of a kind -/

/-- **The shape of a kind,** whatever the numeral is worth and however long it is. -/
def Kind.Fits (token : String) : Kind → Prop
  | .register => ∃ index, IsRegister token index
  | .immediate => ∃ value, IsLiteral token value
  | .keyword => Text.uppercase token ∈ keywords
  | .invalid => False

/-- **A token fits one kind at most.** -/
lemma Kind.Fits.unique {token : String} {a b : Kind} (ha : a.Fits token) (hb : b.Fits token) :
    a = b := by
  have hregister : ∀ index, IsRegister token index →
      (∀ value, ¬ IsLiteral token value) ∧ Text.uppercase token ∉ keywords := by
    intro index h
    refine ⟨fun value hvalue => ?_, h.uppercase_notMem⟩
    rw [IsLiteral, h.not_isNumeral] at hvalue
    exact Bool.noConfusion hvalue.1
  cases a with
  | register =>
      obtain ⟨index, hindex⟩ := ha
      obtain ⟨hliteral, hkeyword⟩ := hregister index hindex
      cases b with
      | register => rfl
      | immediate => exact absurd hb.choose_spec (hliteral _)
      | keyword => exact absurd hb hkeyword
      | invalid => exact hb.elim
  | immediate =>
      obtain ⟨value, hvalue⟩ := ha
      cases b with
      | register => exact absurd hvalue ((hregister _ hb.choose_spec).1 value)
      | immediate => rfl
      | keyword => exact absurd hb hvalue.uppercase_notMem
      | invalid => exact hb.elim
  | keyword =>
      cases b with
      | register => exact absurd ha (hregister _ hb.choose_spec).2
      | immediate => exact absurd ha hb.choose_spec.uppercase_notMem
      | keyword => rfl
      | invalid => exact hb.elim
  | invalid => exact ha.elim

lemma fits_of_overlong {token : String} {digits : Nat} (h : Overlong token digits) :
    Kind.register.Fits token ∨ Kind.immediate.Fits token := by
  obtain ⟨numeral, hnumeral, -, -, htoken | ⟨sigil, hsigil, htoken⟩⟩ := h
  · exact .inr ⟨_, htoken ▸ hnumeral, rfl⟩
  · exact .inl ⟨_, sigil, numeral, htoken, hsigil, hnumeral, rfl⟩

/-! ## The kind of a token -/

variable {token text : String} {v : Nat}

/-- **A token that is not overlong has the kind of its shape.** -/
theorem classify_eq_ok_iff {operand : Operand} :
    classify token = .ok operand ↔ (∀ digits, ¬ Overlong token digits) ∧ operand = shape token := by
  constructor
  · intro h
    refine ⟨fun digits hlong => ?_, classify_ok h⟩
    rw [classify_eq_error_iff.mpr ⟨digits, hlong, rfl⟩] at h
    cases h
  · rintro ⟨hshort, rfl⟩
    cases hclass : classify token with
    | ok operand => rw [classify_ok hclass]
    | error fault =>
        obtain ⟨digits, hlong, -⟩ := classify_eq_error_iff.mp hclass
        exact absurd hlong (hshort digits)

/-- **The registers:** the letter in either case and a number. -/
lemma classify_eq_register_iff : classify token = .ok (.register text v) ↔
    text = token ∧ ∃ sigil digits, token.toList = sigil :: digits ∧ (sigil = 'V' ∨ sigil = 'v') ∧
      IsWordNumeral digits v := by
  rw [classify_eq_ok_iff, eq_comm (b := shape token), shape_eq_register_iff]
  simp only [← isRegisterSigil_iff]
  constructor
  · rintro ⟨hshort, rfl, ⟨sigil, digits, htoken, hsigil, hnumeral, hvalue⟩, hlt⟩
    refine ⟨rfl, sigil, digits, htoken, hsigil, hnumeral, ?_, hvalue, hlt⟩
    rw [← Nat.not_lt]
    intro hlong
    exact hshort _ ((overlong_register_iff htoken hsigil hnumeral).mpr ⟨rfl, hlong⟩)
  · rintro ⟨rfl, sigil, digits, htoken, hsigil, hnumeral, hlen, hvalue, hlt⟩
    refine ⟨fun n hlong => ?_, rfl, ⟨sigil, digits, htoken, hsigil, hnumeral, hvalue⟩, hlt⟩
    obtain ⟨rfl, hlong⟩ := (overlong_register_iff htoken hsigil hnumeral).mp hlong
    omega

/-- **The literals:** a number. -/
lemma classify_eq_immediate_iff : classify token = .ok (.immediate text v) ↔
    text = token ∧ IsWordNumeral token.toList v := by
  rw [classify_eq_ok_iff, eq_comm (b := shape token), shape_eq_immediate_iff]
  constructor
  · rintro ⟨hshort, rfl, ⟨hnumeral, hvalue⟩, hlt⟩
    refine ⟨rfl, hnumeral, ?_, hvalue, hlt⟩
    rw [← Nat.not_lt]
    intro hlong
    exact hshort _ ((overlong_numeral_iff hnumeral).mpr ⟨rfl, hlong⟩)
  · rintro ⟨rfl, hnumeral, hlen, hvalue, hlt⟩
    refine ⟨fun n hlong => ?_, rfl, ⟨hnumeral, hvalue⟩, hlt⟩
    obtain ⟨rfl, hlong⟩ := (overlong_numeral_iff hnumeral).mp hlong
    omega

/-- **The keywords:** the tokens whose capitals are one. -/
lemma classify_eq_keyword_iff : classify token = .ok (.keyword text) ↔
    text = Text.uppercase token ∧ Text.uppercase token ∈ keywords := by
  rw [classify_eq_ok_iff, eq_comm (b := shape token), shape_eq_keyword_iff]
  constructor
  · rintro ⟨-, rfl, hkeyword⟩
    exact ⟨rfl, hkeyword⟩
  · rintro ⟨rfl, hkeyword⟩
    refine ⟨fun digits hlong => ?_, rfl, hkeyword⟩
    have hfits : Kind.keyword.Fits token := hkeyword
    rcases fits_of_overlong hlong with h | h
    · cases h.unique hfits
    · cases h.unique hfits

/-- **What the shape of a token means:** an operand of the three kinds that mean something. -/
def IsMeantBy (token : String) : Operand → Prop
  | .register text index => text = token ∧ ∃ sigil digits, token.toList = sigil :: digits ∧
      (sigil = 'V' ∨ sigil = 'v') ∧ IsWordNumeral digits index
  | .immediate text value => text = token ∧ IsWordNumeral token.toList value
  | .keyword text => text = Text.uppercase token ∧ Text.uppercase token ∈ keywords
  | .invalid _ => False

/-- **A token is classified as what it means,** if it means anything. -/
lemma classify_eq_ok_iff_isMeantBy {operand : Operand} (h : operand.kind ≠ .invalid) :
    classify token = .ok operand ↔ operand.IsMeantBy token := by
  cases operand with
  | register text index => exact classify_eq_register_iff
  | immediate text value => exact classify_eq_immediate_iff
  | keyword text => exact classify_eq_keyword_iff
  | invalid text => exact absurd rfl h

lemma IsMeantBy.kind_ne {operand : Operand} (h : operand.IsMeantBy token) :
    operand.kind ≠ .invalid := by
  cases operand with
  | invalid text => exact h.elim
  | _ => exact Kind.noConfusion

lemma text_of_shape_invalid (h : shape token = .invalid text) : text = token := by
  rw [shape] at h
  split at h
  · cases h
  · split at h
    · cases h
    · rw [ofWord_eq] at h
      split_ifs at h
      exact (Operand.invalid.inj h).symm

/-- **Any other token is invalid,** if it is classified at all. -/
lemma classify_eq_invalid_iff : classify token = .ok (.invalid text) ↔
    text = token ∧ (∀ operand : Operand, ¬ operand.IsMeantBy token) ∧
      ∀ fault, classify token ≠ .error fault := by
  constructor
  · intro h
    refine ⟨text_of_shape_invalid (classify_ok h).symm, fun operand hmeant => ?_, by simp [h]⟩
    have hclass := (classify_eq_ok_iff_isMeantBy hmeant.kind_ne).mpr hmeant
    rw [h, Except.ok.injEq] at hclass
    exact hmeant.kind_ne (hclass ▸ rfl)
  · rintro ⟨rfl, hmeant, hfault⟩
    cases hclass : classify text with
    | error fault => exact absurd hclass (hfault fault)
    | ok operand =>
        by_cases hkind : operand.kind = .invalid
        · cases operand with
          | invalid other => rw [text_of_shape_invalid (classify_ok hclass).symm]
          | _ => cases hkind
        · exact absurd ((classify_eq_ok_iff_isMeantBy hkind).mp hclass) (hmeant operand)

/-! ## The order of the tests -/

/-- **The test for one kind:** nothing if the token is not of that kind. -/
def Kind.test (token : String) : Kind → Except Fault (Option Operand)
  | .register => do return (← readRegister token).map (.register token)
  | .immediate => do return (← readNumber token).map (.immediate token)
  | .keyword =>
    .ok (if Text.uppercase token ∈ keywords then some (.keyword (Text.uppercase token)) else none)
  | .invalid => .ok none

/-- **The classification by tests in some order:** the first test that says something decides. -/
def classifyIn (order : List Kind) (token : String) : Except Fault Operand :=
  order.foldr (fun kind later => do
    match ← kind.test token with
    | some operand => return operand
    | none => later) (.ok (.invalid token))

/-- A test says nothing about a token that does not fit. -/
lemma Kind.test_of_not_fits {kind : Kind} (h : ¬ kind.Fits token) :
    kind.test token = .ok none := by
  cases kind with
  | register =>
      cases hread : readRegister token with
      | ok index =>
          cases index with
          | none => rw [test, hread]; rfl
          | some i => exact absurd ⟨i, (index?_eq_some_iff.mp (readIndex_ok hread).symm).1⟩ h
      | error fault =>
          obtain ⟨sigil, rest, htoken, hsigil, hread⟩ := readIndex_eq_error_iff.mp hread
          obtain ⟨hnumeral, -, -⟩ := readDigits_eq_error_iff.mp hread
          exact absurd ⟨_, sigil, rest, htoken, hsigil, hnumeral, rfl⟩ h
  | immediate =>
      cases hread : readNumber token with
      | ok value =>
          cases value with
          | none => rw [test, hread]; rfl
          | some v => exact absurd ⟨_, (readDigits_eq_some_iff.mp hread).1, rfl⟩ h
      | error fault => exact absurd ⟨_, (readDigits_eq_error_iff.mp hread).1, rfl⟩ h
  | keyword =>
      have hword : Text.uppercase token ∉ keywords := h
      rw [test, if_neg hword]
  | invalid => rfl

lemma classifyIn_eq (token : String) :
    classifyIn [.register, .immediate, .keyword] token = classify token := by
  simp only [classifyIn, classify, List.foldr_cons, List.foldr_nil, Kind.test, ofWord_eq, bind,
    Except.bind, pure, Except.pure]
  cases readRegister token with
  | error fault => rfl
  | ok index =>
      cases index with
      | some i => rfl
      | none =>
          cases readNumber token with
          | error fault => rfl
          | ok value =>
              cases value with
              | some v => rfl
              | none => split_ifs <;> rfl

/-- **Tests may be made in any order,** because at most one of them says something. -/
lemma classifyIn_perm {order order' : List Kind} (h : order.Perm order') (token : String) :
    classifyIn order token = classifyIn order' token := by
  refine h.foldr_eq' (fun a _ b _ later => ?_) _
  by_cases hab : a = b
  · rw [hab]
  · by_cases ha : a.Fits token
    · have hb : ¬ b.Fits token := fun hb => hab (ha.unique hb)
      rw [Kind.test_of_not_fits hb]
      rfl
    · rw [Kind.test_of_not_fits ha]
      rfl

end Operand

/-! ## The letter of a register -/

lemma eq_of_ofNat_eq {n : Nat} {c : Char} (h : Char.ofNat n = c) (hc : c.toNat ≠ 0) :
    n = c.toNat := by
  subst h
  by_cases hvalid : n.isValidChar
  · rw [Char.ofNat, dif_pos hvalid]
    rfl
  · rw [Char.ofNat, dif_neg hvalid] at hc
    exact absurd rfl hc

/-- The characters beyond ASCII keep away from the letter of a register. -/
lemma upperFromTables_ne {c : Char} (h : 0x80 ≤ c.toNat) : Text.upperFromTables c ≠ ['V'] := by
  have hlong : ∀ entry ∈ Text.caseExpansions, entry.2.length ≠ 1 := by decide +kernel
  have hruns : ∀ run ∈ Text.caseRuns, run.holds (86 - run.distance).toNat = false := by
    decide +kernel
  rw [Text.upperFromTables]
  split
  · next codes hcodes =>
      intro heq
      have hlength : codes.length = 1 := by simpa using congrArg List.length heq
      obtain ⟨before, behind, hsplit, -⟩ := List.lookup_eq_some_iff.mp hcodes
      exact hlong (c.toNat, codes) (by simp [hsplit]) hlength
  · split
    · next run hrun =>
        intro heq
        have hcode : (c.toNat + run.distance).toNat = 86 :=
          eq_of_ofNat_eq (List.cons.inj heq).1 (by decide)
        have hback : c.toNat = (86 - run.distance).toNat := by omega
        have hholds := List.find?_some hrun
        rw [hback, hruns run (List.mem_of_find?_eq_some hrun)] at hholds
        cases hholds
    · intro heq
      obtain rfl := (List.cons.inj heq).1
      exact absurd h (by decide)

/-- **No other character has the letter of a register for its capital.** -/
lemma upperChar_eq_sigil_iff {c : Char} :
    Text.upperChar c = ['V'] ↔ isRegisterSigil c = true := by
  refine ⟨fun h => ?_, upperChar_of_isRegisterSigil⟩
  by_cases hascii : c.toNat < 0x80
  · have hall : ∀ n : Fin 0x80, (Char.ofNat n).toUpper = 'V' →
        isRegisterSigil (Char.ofNat n) = true := by decide +kernel
    rw [Text.upperChar_ascii hascii, List.cons.injEq] at h
    have hc := hall ⟨c.toNat, hascii⟩
    simp only [Char.ofNat_toNat] at hc
    exact hc h.1
  · rw [Text.upperChar, if_neg hascii] at h
    exact absurd h (upperFromTables_ne (by omega))

/-! ## Every token -/

namespace Operand

/-- **What becomes of a token.** -/
structure Classification (token : String) : Prop where
  /-- The numbers are the numerals that are not too long and of a value that fits a word. -/
  number : ∀ v, readNumber token = .ok (some v) ↔ IsWordNumeral token.toList v
  /-- A numeral that is too long is a fault. -/
  tooLong : ∀ fault, readNumber token = .error fault ↔
    Numeral.isNumeral token.toList = true ∧ Numeral.maxDigits < token.length ∧
      fault = .overlongNumeral token.length
  /-- Any other token is no number. -/
  noNumber : readNumber token = .ok none ↔ (∀ v, ¬ IsWordNumeral token.toList v) ∧
    ¬ (Numeral.isNumeral token.toList = true ∧ Numeral.maxDigits < token.length)
  /-- The registers, the literals and the keywords are the tokens that mean one. -/
  meant : ∀ operand : Operand, operand.kind ≠ .invalid →
    (classify token = .ok operand ↔ operand.IsMeantBy token)
  /-- Any other token is invalid, if there is no fault. -/
  invalid : ∀ text, classify token = .ok (.invalid text) ↔
    text = token ∧ (∀ operand : Operand, ¬ operand.IsMeantBy token) ∧
      ∀ fault, classify token ≠ .error fault
  /-- There is a fault exactly if a numeral is too long, alone or behind the letter. -/
  fault : ∀ fault, classify token = .error fault ↔
    ∃ digits, Overlong token digits ∧ fault = .overlongNumeral digits
  /-- The shapes of the three kinds exclude each other. -/
  exclusive : ∀ a b : Kind, a.Fits token → b.Fits token → a = b
  /-- The order of the tests does not matter. -/
  order : ∀ kinds : List Kind, kinds.Perm [.register, .immediate, .keyword] →
    classifyIn kinds token = classify token

lemma classification (token : String) : Classification token where
  number v := readDigits_eq_some_iff
  tooLong fault := by
    rw [← String.length_toList]
    exact readDigits_eq_error_iff
  noNumber := by
    rw [← String.length_toList]
    exact readDigits_eq_none_iff
  meant operand h := classify_eq_ok_iff_isMeantBy h
  invalid text := classify_eq_invalid_iff
  fault fault := classify_eq_error_iff
  exclusive a b ha hb := ha.unique hb
  order kinds h := by rw [classifyIn_perm h, classifyIn_eq]

/-- **The classification of tokens is exact and unambiguous,** and an operand that is printed is
    read back as what it was.  The letter of a register is known by its capital: no character but
    the small and the capital letter has that capital. -/
theorem classify_exact :
    (∀ token, Classification token) ∧
    (∀ c, Text.upperChar c = ['V'] ↔ c = 'V' ∨ c = 'v') ∧
    ∀ v < 0x10000,
      classify (Numeral.ofNat v) = .ok (.immediate (Numeral.ofNat v) v) ∧
      classify ("V" ++ Numeral.ofNat v) = .ok (.register ("V" ++ Numeral.ofNat v) v) := by
  refine ⟨classification, fun c => ?_, fun v hv => ⟨?_, ?_⟩⟩
  · rw [upperChar_eq_sigil_iff, isRegisterSigil_iff]
  · refine classify_eq_immediate_iff.mpr ⟨rfl, ?_⟩
    rw [Numeral.toList_ofNat]
    exact isWordNumeral_toDigits hv
  · refine classify_eq_register_iff.mpr ⟨rfl, 'V', Nat.toDigits 10 v, ?_, .inl rfl,
      isWordNumeral_toDigits hv⟩
    rw [String.toList_append, Numeral.toList_ofNat]
    rfl

end Operand

end Chip8
