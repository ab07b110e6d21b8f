import Chip8.Operand
import Chip8.Proofs.Lines
import Chip8.Proofs.Numerals
import Chip8.Proofs.Tokens

/-!
# The shapes of operand tokens

Three shapes of tokens mean something: a register (`IsRegister`), a literal (`IsLiteral`) and a
keyword.  They exclude each other, so the order in which a token is tried does not matter.

Classification can fail on a numeral that is too long to be converted, which is the subject of
`Chip8.Proofs.Classification`.  Where it does not, it is the total function `Operand.shape`.
`shape_eq_register_iff`, `shape_eq_immediate_iff` and `shape_eq_keyword_iff` say exactly which
tokens it maps to which kind.  The last section lists the shapes of the operands that the
disassembler prints.
-/

namespace Chip8

/-! ## Shapes -/

/-- **A register:** the letter in either case and a decimal numeral. -/
def IsRegister (token : String) (index : Nat) : Prop :=
  ∃ sigil digits, token.toList = sigil :: digits ∧ isRegisterSigil sigil = true ∧
    Numeral.isNumeral digits = true ∧ Numeral.value digits = index

/-- **A literal:** a decimal numeral. -/
def IsLiteral (token : String) (value : Nat) : Prop :=
  Numeral.isNumeral token.toList = true ∧ Numeral.value token.toList = value

/-- **A token whose numerals can be converted:** it holds no more digits than that. -/
def Convertible (token : String) : Prop := token.toList.countP Char.isDigit ≤ Numeral.maxDigits

instance (token : String) : Decidable (Convertible token) := inferInstanceAs (Decidable (_ ≤ _))

lemma IsRegister.unique {token : String} {i j : Nat} (hi : IsRegister token i)
    (hj : IsRegister token j) : i = j := by
  obtain ⟨s, ds, ht, -, -, rfl⟩ := hi
  obtain ⟨s', ds', ht', -, -, rfl⟩ := hj
  obtain ⟨-, rfl⟩ := List.cons.inj (ht.symm.trans ht')
  rfl

lemma isRegisterSigil_of_isDigit {c : Char} (h : c.isDigit = true) : isRegisterSigil c = false := by
  rw [isRegisterSigil, Bool.or_eq_false_iff, beq_eq_false_iff_ne, beq_eq_false_iff_ne]
  constructor <;> rintro rfl <;> revert h <;> decide

lemma IsRegister.not_isNumeral {token : String} {i : Nat} (h : IsRegister token i) :
    Numeral.isNumeral token.toList = false := by
  obtain ⟨s, ds, ht, hs, -, -⟩ := h
  rw [ht, Bool.eq_false_iff]
  intro hn
  have hd := (Numeral.isNumeral_iff.mp hn).2 s List.mem_cons_self
  simp [isRegisterSigil_of_isDigit hd] at hs

/-! ## Capitals -/

@[simp] lemma toList_uppercase (token : String) :
    (Text.uppercase token).toList = token.toList.flatMap Text.upperChar := by
  simp [Text.uppercase]

lemma upperChar_of_lt {c : Char} (h : c.toNat < 97) : Text.upperChar c = [c] := by
  have hsmall : ¬ (c.val ≥ 'a'.val ∧ c.val ≤ 'z'.val) := by
    rintro ⟨hl, -⟩
    have : 97 ≤ c.toNat := by simpa [UInt32.le_iff_toNat_le] using hl
    omega
  have hupper : c.toUpper = c := dif_neg hsmall
  rw [Text.upperChar_ascii (by omega), hupper]

lemma upperChar_of_isDigit {c : Char} (h : c.isDigit = true) : Text.upperChar c = [c] := by
  have hc : 48 ≤ c.toNat ∧ c.toNat ≤ 57 := by
    simpa [Char.isDigit, UInt32.le_iff_toNat_le] using h
  exact upperChar_of_lt (by omega)

lemma upperChar_of_isRegisterSigil {c : Char} (h : isRegisterSigil c = true) :
    Text.upperChar c = ['V'] := by
  rw [isRegisterSigil, Bool.or_eq_true, beq_iff_eq, beq_iff_eq] at h
  rcases h with rfl | rfl <;> decide

/-- No keyword begins like a register or a literal. -/
lemma head_keyword : ∀ word ∈ keywords,
    (word.toList.head?.all fun c => c != 'V' && !c.isDigit) = true := by decide

lemma IsRegister.uppercase_notMem {token : String} {i : Nat} (h : IsRegister token i) :
    Text.uppercase token ∉ keywords := by
  obtain ⟨s, ds, ht, hs, -, -⟩ := h
  intro hk
  have hhead := head_keyword _ hk
  simp [ht, upperChar_of_isRegisterSigil hs] at hhead

lemma IsLiteral.uppercase_notMem {token : String} {v : Nat} (h : IsLiteral token v) :
    Text.uppercase token ∉ keywords := by
  obtain ⟨hne, hdigits⟩ := Numeral.isNumeral_iff.mp h.1
  obtain ⟨c, cs, hc⟩ := List.exists_cons_of_ne_nil hne
  have hd : c.isDigit = true := hdigits c (by simp [hc])
  intro hk
  have hhead := head_keyword _ hk
  simp [hc, upperChar_of_isDigit hd, hd] at hhead

/-! ## The operand of a shape -/

/-- The literal that a digit list spells, if it fits a word. -/
def number? (cs : List Char) : Option Nat :=
  if Numeral.isNumeral cs then (some (Numeral.value cs)).filter (· < 0x10000) else none

/-- The register index that a character list spells, if it fits a word. -/
def index? : List Char → Option Nat
  | c :: rest => if isRegisterSigil c then number? rest else none
  | [] => none

/-- **The operand of a token** whose numerals can be converted. -/
def Operand.shape (token : String) : Operand :=
  match index? token.toList with
  | some index => .register token index
  | none =>
    match number? token.toList with
    | some value => .immediate token value
    | none => .ofWord token

lemma number?_eq_some_iff {cs : List Char} {v : Nat} :
    number? cs = some v ↔ Numeral.isNumeral cs = true ∧ Numeral.value cs = v ∧ v < 0x10000 := by
  rw [number?]
  split_ifs with h
  · rw [Option.filter_eq_some_iff, Option.some.injEq]
    simp only [h, true_and, decide_eq_true_eq]
  · simp [h]

lemma index?_eq_some_iff {token : String} {i : Nat} :
    index? token.toList = some i ↔ IsRegister token i ∧ i < 0x10000 := by
  constructor
  · intro h
    rcases ht : token.toList with _ | ⟨c, rest⟩
    · rw [ht] at h; simp [index?] at h
    · rw [ht, index?] at h
      split_ifs at h with hc
      obtain ⟨hn, hv, hlt⟩ := number?_eq_some_iff.mp h
      exact ⟨⟨c, rest, ht, hc, hn, hv⟩, hlt⟩
  · rintro ⟨⟨c, rest, ht, hc, hn, hv⟩, hlt⟩
    rw [ht, index?, if_pos hc]
    exact number?_eq_some_iff.mpr ⟨hn, hv, hlt⟩

lemma Operand.ofWord_eq (token : String) :
    Operand.ofWord token =
      if Text.uppercase token ∈ keywords then .keyword (Text.uppercase token)
      else .invalid token := by
  simp only [ofWord, List.contains_iff_mem]

/-- **The registers are the tokens of the shape of a register** whose index fits a word. -/
theorem Operand.shape_eq_register_iff {token text : String} {i : Nat} :
    shape token = .register text i ↔ text = token ∧ IsRegister token i ∧ i < 0x10000 := by
  rw [← index?_eq_some_iff, shape]
  cases index? token.toList with
  | some j =>
      simp only [Operand.register.injEq, Option.some.injEq]
      exact and_congr_left' eq_comm
  | none =>
      cases number? token.toList with
      | some v => simp
      | none =>
          simp only [ofWord_eq]
          split_ifs <;> simp

/-- **The literals are the numerals** whose value fits a word. -/
theorem Operand.shape_eq_immediate_iff {token text : String} {v : Nat} :
    shape token = .immediate text v ↔ text = token ∧ IsLiteral token v ∧ v < 0x10000 := by
  have hnumber : IsLiteral token v ∧ v < 0x10000 ↔ number? token.toList = some v := by
    rw [number?_eq_some_iff, IsLiteral, and_assoc]
  rw [hnumber, shape]
  cases hi : index? token.toList with
  | some i =>
      have hreg := (index?_eq_some_iff.mp hi).1
      simp [number?, hreg.not_isNumeral]
  | none =>
      cases number? token.toList with
      | some v' =>
          simp only [Operand.immediate.injEq, Option.some.injEq]
          exact and_congr_left' eq_comm
      | none =>
          simp only [ofWord_eq]
          split_ifs <;> simp

/-- **The keywords are the tokens whose capitals are one.** -/
theorem Operand.shape_eq_keyword_iff {token word : String} :
    shape token = .keyword word ↔ Text.uppercase token = word ∧ word ∈ keywords := by
  constructor
  · intro h
    rw [shape] at h
    split at h
    · simp at h
    · split at h
      · simp at h
      · rw [ofWord_eq] at h
        split_ifs at h with hk
        obtain rfl := Operand.keyword.inj h
        exact ⟨rfl, hk⟩
  · rintro ⟨rfl, hk⟩
    -- Registers and literals are tried before keywords, so neither may be one.
    have hi : index? token.toList = none := by
      rw [Option.eq_none_iff_forall_ne_some]
      intro i hi
      exact (index?_eq_some_iff.mp hi).1.uppercase_notMem hk
    have hn : number? token.toList = none := by
      rw [Option.eq_none_iff_forall_ne_some]
      intro v hv
      obtain ⟨h1, h2, -⟩ := number?_eq_some_iff.mp hv
      exact IsLiteral.uppercase_notMem ⟨h1, h2⟩ hk
    simp only [shape, hi, hn, ofWord_eq, if_pos hk]

/-! ## Printed operands -/

/-- **An operand as it is printed:** registers and literals in decimal without leading zeros. -/
def Operand.normal : Operand → String
  | .register _ index => "V" ++ Numeral.ofNat index
  | .immediate _ value => Numeral.ofNat value
  | .keyword word => word
  | .invalid text => text

/-- **A capital word:** capital letters and digits, at least one. -/
def IsCapitalWord (word : String) : Prop :=
  word.toList ≠ [] ∧ ∀ c ∈ word.toList, (c.isUpper || c.isDigit) = true

/-- The characters are tested one by one. -/
instance (word : String) : Decidable (IsCapitalWord word) :=
  decidable_of_iff (word.toList.isEmpty = false ∧
    (word.toList.all fun c => c.isUpper || c.isDigit) = true) (by simp [IsCapitalWord])

lemma capital_range {c : Char} (h : (c.isUpper || c.isDigit) = true) :
    48 ≤ c.toNat ∧ c.toNat ≤ 90 := by
  rw [Bool.or_eq_true] at h
  rcases h with h | h
  · have hcapital : 'A'.val ≤ c.val ∧ c.val ≤ 'Z'.val := of_decide_eq_true h
    have : 65 ≤ c.toNat ∧ c.toNat ≤ 90 := by simpa [UInt32.le_iff_toNat_le] using hcapital
    omega
  · have : 48 ≤ c.toNat ∧ c.toNat ≤ 57 := by simpa [Char.isDigit, UInt32.le_iff_toNat_le] using h
    omega

lemma capital_plain {c : Char} (h : (c.isUpper || c.isDigit) = true) :
    isSeparator c = false ∧ Text.isBlank c = false ∧ Text.isLineBreak c = false := by
  have hc := capital_range h
  refine ⟨?_, ?_, ?_⟩
  · have hne : ∀ d : Char, d.toNat < 48 → c ≠ d := by rintro d hd rfl; omega
    simp [isSeparator, hne ' ' (by decide), hne '\t' (by decide), hne ',' (by decide)]
  · simp only [Text.isBlank, Bool.or_eq_false_iff, Bool.and_eq_false_iff, decide_eq_false_iff_not,
      beq_eq_false_iff_ne]
    omega
  · simp only [Text.isLineBreak, Bool.or_eq_false_iff, Bool.and_eq_false_iff,
      decide_eq_false_iff_not, beq_eq_false_iff_ne]
    omega

lemma IsCapitalWord.isToken {word : String} (h : IsCapitalWord word) : IsToken word.toList :=
  ⟨h.1, fun c hc => (capital_plain (h.2 c hc)).1⟩

lemma IsCapitalWord.uppercase {word : String} (h : IsCapitalWord word) :
    Text.uppercase word = word := by
  have hfold : ∀ cs : List Char, (∀ c ∈ cs, (c.isUpper || c.isDigit) = true) →
      cs.flatMap Text.upperChar = cs := by
    intro cs hcs
    induction cs with
    | nil => rfl
    | cons c cs ih =>
        have hc := capital_range (hcs c List.mem_cons_self)
        rw [List.flatMap_cons, upperChar_of_lt (by omega),
          ih fun d hd => hcs d (List.mem_cons_of_mem _ hd)]
        rfl
  rw [← String.toList_inj, toList_uppercase, hfold _ h.2]

lemma isRegister_printed (n : Nat) : IsRegister ("V" ++ Numeral.ofNat n) n :=
  ⟨'V', Nat.toDigits 10 n, by simp, rfl, Numeral.isNumeral_toDigits n, Numeral.value_toDigits n⟩

lemma isLiteral_printed (n : Nat) : IsLiteral (Numeral.ofNat n) n := by
  rw [IsLiteral, Numeral.toList_ofNat]
  exact ⟨Numeral.isNumeral_toDigits n, Numeral.value_toDigits n⟩

lemma isCapitalWord_keyword : ∀ word ∈ keywords, IsCapitalWord word := by decide

lemma convertible_keyword : ∀ word ∈ keywords, Convertible word := by
  intro word hw
  have h0 : ∀ w ∈ keywords, w.toList.countP Char.isDigit = 0 := by decide
  rw [Convertible, h0 word hw]
  exact Nat.zero_le _

lemma isCapitalWord_literal (n : Nat) : IsCapitalWord (Numeral.ofNat n) := by
  rw [IsCapitalWord, Numeral.toList_ofNat]
  refine ⟨Nat.toDigits_ne_nil, fun c hc => ?_⟩
  simp [Numeral.isDigit_of_mem_toDigits hc]

lemma isCapitalWord_register (n : Nat) : IsCapitalWord ("V" ++ Numeral.ofNat n) := by
  refine ⟨by simp, fun c hc => ?_⟩
  rw [String.toList_append, List.mem_append] at hc
  rcases hc with hc | hc
  · obtain rfl : c = 'V' := by simpa using hc
    rfl
  · exact (isCapitalWord_literal n).2 c hc

lemma convertible_literal {n : Nat} (h : n < 0x10000) : Convertible (Numeral.ofNat n) := by
  rw [Convertible, Numeral.toList_ofNat, Numeral.countP_isDigit (Numeral.isNumeral_toDigits n)]
  exact Numeral.length_toDigits_le h

lemma convertible_register {n : Nat} (h : n < 0x10000) : Convertible ("V" ++ Numeral.ofNat n) := by
  have hV : "V".toList.countP Char.isDigit = 0 := by decide
  rw [Convertible, String.toList_append, List.countP_append, hV, Nat.zero_add]
  exact convertible_literal h

end Chip8
