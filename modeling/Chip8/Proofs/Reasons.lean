import Chip8.Proofs.Blame
import Chip8.Proofs.Completion

/-!
# Reasons are unbroken

What is wrong with a line is said in one line, whatever the line holds.  A text is unbroken
(`Text.IsUnbroken`) if there is no line boundary in it, and a reason is put together from unbroken
texts: its wording, numerals, the mnemonic of a row, and parts of the line, which was cut out of its
source at every boundary there is.

* `Table.exists_of_encode_rejected` says what a table finds wrong with the operands of a mnemonic:
  their number, or one of them (`OperandError.Concerns`).
* `Table.lineWord_rejected` is the same for lines, and `Table.isUnbroken_reason` the result.

Nothing is asked of the table but that its mnemonics are unbroken.
-/

namespace Chip8

/-! ## Unbroken texts -/

namespace Text

/-- **A text without a line boundary.** -/
def IsUnbroken (text : String) : Prop := ∀ c ∈ text.toList, isLineBreak c = false

/-- The characters are tested one by one. -/
instance (text : String) : Decidable (IsUnbroken text) :=
  decidable_of_iff ((text.toList.all fun c => !isLineBreak c) = true) (by simp [IsUnbroken])

/-- Every line boundary is a blank. -/
lemma isLineBreak_of_not_isBlank {c : Char} (h : isBlank c = false) : isLineBreak c = false := by
  simp only [isBlank, Bool.or_eq_false_iff, Bool.and_eq_false_iff, decide_eq_false_iff_not,
    beq_eq_false_iff_ne] at h
  simp only [isLineBreak, Bool.or_eq_false_iff, Bool.and_eq_false_iff, decide_eq_false_iff_not,
    beq_eq_false_iff_ne]
  omega

@[simp] lemma isUnbroken_append {first second : String} :
    IsUnbroken (first ++ second) ↔ IsUnbroken first ∧ IsUnbroken second := by
  simp only [IsUnbroken, String.toList_append, List.forall_mem_append]

lemma isUnbroken_intercalate {sep : String} (hsep : IsUnbroken sep) {texts : List String}
    (h : ∀ text ∈ texts, IsUnbroken text) : IsUnbroken (sep.intercalate texts) := by
  rw [IsUnbroken, String.toList_intercalate]
  exact forall_mem_intercalate hsep (by simpa [IsUnbroken] using h)

lemma IsUnbroken.of_subset {text part : String} (h : IsUnbroken text)
    (hpart : part.toList ⊆ text.toList) : IsUnbroken part := fun c hc => h c (hpart hc)

lemma trim_subset (cs : List Char) : trim cs ⊆ cs := by
  obtain ⟨before, behind, hcs, -⟩ := exists_margins cs
  intro c hc
  rw [hcs]
  exact List.mem_append_left _ (List.mem_append_right _ hc)

lemma IsUnbroken.strip {text : String} (h : IsUnbroken text) : IsUnbroken (strip text) :=
  h.of_subset (by rw [Text.strip, String.toList_ofList]; exact trim_subset _)

/-- **The tokens of an unbroken line are unbroken.** -/
lemma IsUnbroken.token {line token : String} (h : IsUnbroken line) (htoken : token ∈ tokens line) :
    IsUnbroken token := by
  obtain ⟨piece, hpiece, rfl⟩ := List.mem_map.mp htoken
  have hmem : piece ∈ (trim line.toList).splitOnP isSeparator := (List.mem_filter.mp hpiece).1
  refine h.of_subset fun c hc => ?_
  rw [String.toList_ofList] at hc
  exact trim_subset _ (mem_of_mem_splitOnP hmem c hc).1

end Text

lemma IsCapitalWord.isUnbroken {word : String} (h : IsCapitalWord word) : Text.IsUnbroken word :=
  fun c hc => (capital_plain (h.2 c hc)).2.2

lemma Numeral.isUnbroken_ofNat (n : Nat) : Text.IsUnbroken (ofNat n) :=
  (isCapitalWord_literal n).isUnbroken

lemma Numeral.isUnbroken_ofInt (n : Int) : Text.IsUnbroken (ofInt n) := by
  cases n with
  | ofNat n => exact isUnbroken_ofNat n
  | negSucc n => exact Text.isUnbroken_append.mpr ⟨by decide, isUnbroken_ofNat (n + 1)⟩

/-- An operand is shown as its token or as a keyword. -/
lemma Operand.isUnbroken_text {token : String} (h : Text.IsUnbroken token) :
    Text.IsUnbroken (shape token).text := by
  rw [text_shape, shownToken]
  split_ifs with hkeyword
  · exact (isCapitalWord_keyword _ hkeyword).isUnbroken
  · exact h

/-! ## What can be wrong with operands -/

/-- **An error that concerns operands:** their number or one of them. -/
inductive OperandError.Concerns (operands : List Operand) : OperandError → Prop
  | count (expected : List Nat) (given : Nat) (accepted : List String) :
      Concerns operands (.count expected given accepted)
  | shape {operand : Operand} (h : operand ∈ operands) (accepted : List String) :
      Concerns operands (.shape operand.text accepted)
  | range {operand : Operand} (h : operand ∈ operands) (slot : String) (limit : Nat) :
      Concerns operands (.range operand.text slot limit)

lemma OperandError.Concerns.cons {operands : List Operand} {error : OperandError}
    (h : error.Concerns operands) (operand : Operand) : error.Concerns (operand :: operands) := by
  cases h with
  | count expected given accepted => exact .count expected given accepted
  | shape h accepted => exact .shape (List.mem_cons_of_mem _ h) accepted
  | range h slot limit => exact .range (List.mem_cons_of_mem _ h) slot limit

namespace Table

variable {mnemonic : String} {given : List String} {operands : List Operand} {cause : Cause}

lemma mapError_faulted_ne {α : Type} {result : Except Fault α} :
    result.mapError Setback.faulted ≠ .error (.rejected cause) := by
  cases result <;> simp [Except.mapError]

lemma fillFields_rejected {slots : List Slot} {values : Field → Int}
    (h : fillFields mnemonic given slots operands values = .error (.rejected cause)) :
    ∃ error, error.Concerns operands ∧ cause = .operands mnemonic given error := by
  fun_induction fillFields mnemonic given slots operands values with
  | case1 slot slots operand operands values hfield ih =>
      obtain ⟨error, herror, hcause⟩ := ih h
      exact ⟨error, herror.cons operand, hcause⟩
  | case2 => simp at h
  | case3 => simp at h
  | case4 slot slots operand operands values field hfield value hvalue hle ih =>
      obtain ⟨error, herror, hcause⟩ := ih h
      exact ⟨error, herror.cons operand, hcause⟩
  | case5 slot slots operand operands values field hfield value hvalue hlt =>
      rw [Except.error.injEq, Setback.rejected.injEq] at h
      exact ⟨_, .range List.mem_cons_self _ _, h.symm⟩
  | case6 => simp at h

lemma fill_rejected {form : Form} (h : fill form given operands = .error (.rejected cause)) :
    ∃ error, error.Concerns operands ∧ cause = .operands form.mnemonic given error := by
  rw [fill] at h
  rcases exists_of_bind_eq_error h with h | ⟨values, -, h⟩
  · exact fillFields_rejected h
  · exact absurd h mapError_faulted_ne

lemma blamed_mem {candidates : List Form} {place : Nat} {operand : Operand}
    (h : blamed candidates place operands = .ok (some operand)) : operand ∈ operands := by
  fun_induction blamed candidates place operands with
  | case1 => simp at h
  | case2 => simp at h
  | case3 place first rest taken htaken hnext ih => exact List.mem_cons_of_mem _ (ih h)
  | case4 place first rest taken htaken hlast =>
      rw [Except.ok.injEq, Option.some.injEq] at h
      exact h ▸ List.mem_cons_self

lemma mismatch_rejected {forms : List Form}
    (h : mismatch mnemonic forms given operands = .error (.rejected cause)) :
    ∃ error, error.Concerns operands ∧ cause = .operands mnemonic given error := by
  rw [mismatch] at h
  rcases exists_of_bind_eq_error h with h | ⟨accepted, -, h⟩
  · exact absurd h mapError_faulted_ne
  · rcases exists_of_bind_eq_error h with h | ⟨blame, hblame, h⟩
    · exact absurd h mapError_faulted_ne
    · rw [Except.error.injEq, Setback.rejected.injEq] at h
      refine ⟨_, ?_, h.symm⟩
      split
      · next operand _ =>
          cases hblamed : blamed (forms.filter (·.slots.length == operands.length)) 0 operands with
          | ok blame =>
              rw [hblamed] at hblame
              cases hblame
              exact .shape (blamed_mem hblamed) accepted
          | error fault =>
              rw [hblamed] at hblame
              cases hblame
      · exact .count _ _ _

/-- **A mnemonic is rejected with its operands, for their number or for one of them.** -/
theorem exists_of_encode_rejected {table : Table} (hknown : table.isMnemonic mnemonic = true)
    (h : table.encode mnemonic given = .error (.rejected cause)) :
    ∃ error, error.Concerns (given.map Operand.shape) ∧
      cause = .operands (Text.uppercase mnemonic) given error := by
  cases hclass : given.mapM Operand.classify with
  | error fault =>
      rw [encode_faulted hknown hclass] at h
      simp at h
  | ok operands =>
      rw [encode_eq hknown (.of_ok hclass)] at h
      split at h
      · next form hform =>
          rw [← (mem_forms.mp (accepting?_spec hform).1).2]
          exact fill_rejected h
      · exact mismatch_rejected h
      · simp at h

end Table

/-! ## Lines -/

namespace Table

variable {table : Table} {source : String} {cause : Cause}

/-- **A line is rejected as a whole, or for the operands of its mnemonic.** -/
lemma lineWord_rejected (h : table.lineWord source = .error (.rejected cause)) :
    cause = .unencodable "" ∨ cause = .unencodable (Text.strip source) ∨
      ∃ mnemonic given error, tokens source = mnemonic :: given ∧
        table.isMnemonic mnemonic = true ∧ error.Concerns (given.map Operand.shape) ∧
        cause = .operands (Text.uppercase mnemonic) given error := by
  rcases ht : tokens source with _ | ⟨mnemonic, given⟩
  · rw [lineWord, ht, Except.error.injEq, Setback.rejected.injEq] at h
    exact .inl h.symm
  · cases hknown : table.isMnemonic mnemonic with
    | true =>
        rw [lineWord_instruction ht hknown] at h
        cases hencode : table.encode mnemonic given with
        | ok w =>
            rw [hencode] at h
            cases h
        | error setback =>
            rw [hencode] at h
            cases h
            obtain ⟨error, herror, hcause⟩ := exists_of_encode_rejected hknown hencode
            exact .inr (.inr ⟨mnemonic, given, error, rfl, hknown, herror, hcause⟩)
    | false =>
        rw [lineWord_raw ht hknown] at h
        split at h
        · cases h
        · cases h
          exact .inr (.inl rfl)

end Table

/-- The wording adds nothing that breaks a line. -/
lemma OperandError.Concerns.isUnbroken_reason {operands : List Operand} {error : OperandError}
    (h : error.Concerns operands) (hoperands : ∀ operand ∈ operands, Text.IsUnbroken operand.text)
    {mnemonic : String} (hmnemonic : Text.IsUnbroken mnemonic) (given : List String) :
    Text.IsUnbroken (Cause.operands mnemonic given error).reason := by
  cases h with
  | count expected number accepted =>
      have hcounts : Text.IsUnbroken (" or ".intercalate (expected.map Numeral.ofNat)) := by
        refine Text.isUnbroken_intercalate (by decide) fun text htext => ?_
        obtain ⟨n, -, rfl⟩ := List.mem_map.mp htext
        exact Numeral.isUnbroken_ofNat n
      change Text.IsUnbroken (mnemonic ++ " expects " ++
        " or ".intercalate (expected.map Numeral.ofNat) ++ " operand(s), got " ++
        Numeral.ofNat number)
      simp only [Text.isUnbroken_append]
      exact ⟨⟨⟨⟨hmnemonic, by decide⟩, hcounts⟩, by decide⟩, Numeral.isUnbroken_ofNat number⟩
  | shape hmem accepted =>
      change Text.IsUnbroken (mnemonic ++ " does not accept operand '" ++ _ ++ "'")
      simp only [Text.isUnbroken_append]
      exact ⟨⟨⟨hmnemonic, by decide⟩, hoperands _ hmem⟩, by decide⟩
  | range hmem slot limit =>
      change Text.IsUnbroken (mnemonic ++ " operand '" ++ _ ++ "' out of range")
      simp only [Text.isUnbroken_append]
      exact ⟨⟨⟨hmnemonic, by decide⟩, hoperands _ hmem⟩, by decide⟩

/-- **The reason for which an unbroken line is rejected is unbroken.** -/
theorem Table.isUnbroken_reason {table : Table} {source : String} {cause : Cause}
    (htable : ∀ form ∈ table, Text.IsUnbroken form.mnemonic) (hsource : Text.IsUnbroken source)
    (h : table.lineWord source = .error (.rejected cause)) : Text.IsUnbroken cause.reason := by
  have hwhole : ∀ text, Text.IsUnbroken text →
      Text.IsUnbroken (Cause.unencodable text).reason := by
    intro text htext
    change Text.IsUnbroken ("cannot encode '" ++ text ++ "' as a 2-byte opcode")
    simp only [Text.isUnbroken_append]
    exact ⟨⟨by decide, htext⟩, by decide⟩
  rcases lineWord_rejected h with rfl | rfl | ⟨mnemonic, given, error, ht, hknown, herror, rfl⟩
  · exact hwhole "" (by decide)
  · exact hwhole _ hsource.strip
  · obtain ⟨form, hform, hname⟩ := isMnemonic_iff.mp hknown
    refine herror.isUnbroken_reason (fun operand hmem => ?_) (hname ▸ htable form hform) given
    obtain ⟨token, htoken, rfl⟩ := List.mem_map.mp hmem
    refine Operand.isUnbroken_text (hsource.token ?_)
    rw [ht]
    exact List.mem_cons_of_mem _ htoken

end Chip8
