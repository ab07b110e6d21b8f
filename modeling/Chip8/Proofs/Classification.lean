import Chip8.Proofs.Operands

/-!
# When tokens are classified

An operand token is tried as a register, as a literal and as a keyword in this order, and the first
two attempts can fail: a numeral of too many digits is not converted, whatever it is worth.

* `Operand.classify_ok` says that a token that is classified has the kind of its shape.
* `classify_eq_error_iff` says which tokens are not classified: those that are such a numeral, by
  themselves or behind the letter of a register (`Overlong`).
* `classified_iff` is the same for the operands of a line, which are classified one after the other.
-/

namespace Chip8

/-! ## Steps that can fail -/

/-- A computation that succeeds has succeeded in its first step. -/
lemma exists_of_bind_eq_ok {ε α β : Type} {m : Except ε α} {k : α → Except ε β} {b : β}
    (h : (m >>= k) = .ok b) : ∃ a, m = .ok a ∧ k a = .ok b := by
  cases m with
  | error e => cases h
  | ok a => exact ⟨a, rfl, h⟩

/-- A computation that fails has failed in its first step, or after it. -/
lemma exists_of_bind_eq_error {ε α β : Type} {m : Except ε α} {k : α → Except ε β} {e : ε}
    (h : (m >>= k) = .error e) : m = .error e ∨ ∃ a, m = .ok a ∧ k a = .error e := by
  cases m with
  | error e' =>
      obtain rfl : e' = e := Except.error.inj h
      exact .inl rfl
  | ok a => exact .inr ⟨a, rfl, h⟩

/-! ## One token -/

/-- Digits that are read are read for what they are. -/
lemma readDigits_ok {cs : List Char} {v : Option Nat} (h : readDigits cs = .ok v) :
    v = number? cs := by
  rw [readDigits] at h
  rw [number?]
  split_ifs at h ⊢ with hn hlen
  · exact (Except.ok.inj h).symm
  · exact (Except.ok.inj h).symm

lemma readIndex_ok {cs : List Char} {i : Option Nat} (h : readIndex cs = .ok i) :
    i = index? cs := by
  rcases cs with _ | ⟨c, rest⟩
  · exact (Except.ok.inj h).symm
  · rw [readIndex] at h
    rw [index?]
    split_ifs at h ⊢ with hc
    · exact readDigits_ok h
    · exact (Except.ok.inj h).symm

/-- **A token that is classified at all has the kind of its shape.** -/
theorem Operand.classify_ok {token : String} {operand : Operand}
    (h : classify token = .ok operand) : operand = shape token := by
  rw [classify] at h
  obtain ⟨index, hindex, h⟩ := exists_of_bind_eq_ok h
  rw [shape, ← readIndex_ok hindex]
  cases index with
  | some i => exact (Except.ok.inj h).symm
  | none =>
      obtain ⟨value, hvalue, h⟩ := exists_of_bind_eq_ok h
      rw [← readDigits_ok hvalue]
      cases value with
      | some v => exact (Except.ok.inj h).symm
      | none => exact (Except.ok.inj h).symm

/-- **A numeral of more digits than are ever converted,** by itself or behind the letter of a
    register. -/
def Overlong (token : String) (digits : Nat) : Prop :=
  ∃ numeral, Numeral.isNumeral numeral = true ∧ numeral.length = digits ∧
    Numeral.maxDigits < digits ∧
    (token.toList = numeral ∨
      ∃ sigil, isRegisterSigil sigil = true ∧ token.toList = sigil :: numeral)

lemma readDigits_eq_error_iff {cs : List Char} {fault : Fault} :
    readDigits cs = .error fault ↔
      Numeral.isNumeral cs = true ∧ Numeral.maxDigits < cs.length ∧
        fault = .overlongNumeral cs.length := by
  rw [readDigits]
  split_ifs with hnumeral hlen
  · simp [hlen]
  · simp [hnumeral, Nat.lt_of_not_le hlen, eq_comm]
  · simp [hnumeral]

/-- A numeral does not begin with the letter of a register. -/
lemma readIndex_of_isNumeral {cs : List Char} (h : Numeral.isNumeral cs = true) :
    readIndex cs = .ok none := by
  obtain ⟨hne, hdigits⟩ := Numeral.isNumeral_iff.mp h
  obtain ⟨c, rest, rfl⟩ := List.exists_cons_of_ne_nil hne
  rw [readIndex, isRegisterSigil_of_isDigit (hdigits c List.mem_cons_self)]
  rfl

lemma readIndex_eq_error_iff {cs : List Char} {fault : Fault} :
    readIndex cs = .error fault ↔
      ∃ sigil rest, cs = sigil :: rest ∧ isRegisterSigil sigil = true ∧
        readDigits rest = .error fault := by
  rcases cs with _ | ⟨c, rest⟩
  · simp [readIndex]
  · rw [readIndex]
    split_ifs with hsigil
    · simp [hsigil]
    · simp [hsigil]

/-- **A token is not classified exactly if it is overlong.** -/
theorem classify_eq_error_iff {token : String} {fault : Fault} :
    Operand.classify token = .error fault ↔
      ∃ digits, Overlong token digits ∧ fault = .overlongNumeral digits := by
  constructor
  · intro h
    rw [Operand.classify] at h
    rcases exists_of_bind_eq_error h with h | ⟨index, -, h⟩
    · obtain ⟨sigil, rest, htoken, hsigil, h⟩ := readIndex_eq_error_iff.mp h
      obtain ⟨hnumeral, hlen, rfl⟩ := readDigits_eq_error_iff.mp h
      exact ⟨_, ⟨rest, hnumeral, rfl, hlen, .inr ⟨sigil, hsigil, htoken⟩⟩, rfl⟩
    · cases index with
      | some index => cases h
      | none =>
          rcases exists_of_bind_eq_error h with h | ⟨value, -, h⟩
          · obtain ⟨hnumeral, hlen, rfl⟩ := readDigits_eq_error_iff.mp h
            exact ⟨_, ⟨_, hnumeral, rfl, hlen, .inl rfl⟩, rfl⟩
          · cases value <;> cases h
  · rintro ⟨digits, ⟨numeral, hnumeral, rfl, hlen, hshape⟩, rfl⟩
    have hdigits := readDigits_eq_error_iff.mpr ⟨hnumeral, hlen, rfl⟩
    rcases hshape with htoken | ⟨sigil, hsigil, htoken⟩
    · rw [Operand.classify, readRegister, readNumber, htoken, readIndex_of_isNumeral hnumeral,
        hdigits]
      rfl
    · have hindex := readIndex_eq_error_iff.mpr ⟨sigil, numeral, rfl, hsigil, hdigits⟩
      rw [Operand.classify, readRegister, htoken, hindex]
      rfl

/-- A token with no more digits than are converted is not overlong. -/
lemma Overlong.not_convertible {token : String} {digits : Nat} (h : Overlong token digits) :
    ¬ Convertible token := by
  obtain ⟨numeral, hnumeral, rfl, hlen, hshape⟩ := h
  have hcount := Numeral.countP_isDigit hnumeral
  rw [Convertible]
  rcases hshape with htoken | ⟨sigil, -, htoken⟩
  · rw [htoken]
    omega
  · rw [htoken, List.countP_cons]
    omega

/-! ## The operands of a line -/

/-- **Tokens that are all classified,** each by its shape. -/
def Classified (given : List String) : Prop :=
  given.mapM Operand.classify = .ok (given.map Operand.shape)

lemma Classified.of_ok {given : List String} {operands : List Operand}
    (h : given.mapM Operand.classify = .ok operands) : Classified given := by
  induction given generalizing operands with
  | nil => rfl
  | cons token given ih =>
      rw [List.mapM_cons] at h
      obtain ⟨operand, hfirst, h⟩ := exists_of_bind_eq_ok h
      obtain ⟨others, hrest, -⟩ := exists_of_bind_eq_ok h
      rw [Classified, List.mapM_cons, hfirst, ih hrest, Operand.classify_ok hfirst]
      rfl

/-- The tokens are classified up to the first that is overlong. -/
lemma exists_of_mapM_classify {given : List String} {fault : Fault}
    (h : given.mapM Operand.classify = .error fault) :
    ∃ token ∈ given, ∃ digits, Overlong token digits ∧ fault = .overlongNumeral digits := by
  induction given with
  | nil => cases h
  | cons token given ih =>
      rw [List.mapM_cons] at h
      rcases exists_of_bind_eq_error h with h | ⟨operand, -, h⟩
      · exact ⟨token, List.mem_cons_self, classify_eq_error_iff.mp h⟩
      · rcases exists_of_bind_eq_error h with h | ⟨operands, -, h⟩
        · obtain ⟨other, hmem, hother⟩ := ih h
          exact ⟨other, List.mem_cons_of_mem _ hmem, hother⟩
        · cases h

lemma Classified.exists_operand {given : List String} (h : Classified given) :
    ∀ token ∈ given, ∃ operand, Operand.classify token = .ok operand := by
  induction given with
  | nil => exact List.forall_mem_nil _
  | cons token given ih =>
      rw [Classified, List.mapM_cons] at h
      obtain ⟨operand, hfirst, h⟩ := exists_of_bind_eq_ok h
      obtain ⟨operands, hrest, -⟩ := exists_of_bind_eq_ok h
      exact List.forall_mem_cons.mpr ⟨⟨operand, hfirst⟩, ih (.of_ok hrest)⟩

/-- **Tokens are all classified exactly if none of them is overlong.** -/
theorem classified_iff {given : List String} :
    Classified given ↔ ∀ token ∈ given, ∀ digits, ¬ Overlong token digits := by
  constructor
  · intro h token hmem digits hlong
    obtain ⟨operand, hoperand⟩ := h.exists_operand token hmem
    rw [classify_eq_error_iff.mpr ⟨digits, hlong, rfl⟩] at hoperand
    cases hoperand
  · intro h
    cases hclass : given.mapM Operand.classify with
    | ok operands => exact .of_ok hclass
    | error fault =>
        obtain ⟨token, hmem, digits, hlong, -⟩ := exists_of_mapM_classify hclass
        exact absurd hlong (h token hmem digits)

lemma Classified.of_convertible {given : List String} (h : ∀ token ∈ given, Convertible token) :
    Classified given :=
  classified_iff.mpr fun token hmem _ hlong => hlong.not_convertible (h token hmem)

end Chip8
