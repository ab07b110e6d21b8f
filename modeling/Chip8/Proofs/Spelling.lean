import Chip8.Proofs.WellFormed

/-!
# Spelling the operands of a form

The assembler classifies the operand tokens of a line, tests the operands against slots, and
then reads field values off the operands that passed.  What it does to a list of tokens can be
said without operands: the tokens *spell* the slots, one by one, and bring some field values.

* `Slot.Spells` is the grammar of one operand position, `Spells` that of a list of positions.
* `Slot.placed` and `placements` are the same values as the assembler finds them.
* `spells_iff` ties the two: accepted operands are those of tokens that spell the slots, as long
  as all values fit a word.  The induction is on the slots, with `Slot.WellFormed.spells_iff` as
  its step.
-/

namespace Chip8

/-! ## The grammar of operands -/

/-- **A token spells a slot,** and brings a value if the slot fills a field.  A keyword may be
    written in any case, a fixed register in any way that has its index. -/
inductive Slot.Spells : Slot → String → Option (Field × Nat) → Prop
  | register {field : Field} {token : String} {index : Nat} : IsRegister token index →
      Spells (.register field) token (some (field, index))
  | immediate {field : Field} {token : String} {value : Nat} : IsLiteral token value →
      Spells (.immediate field) token (some (field, value))
  | keyword {word token : String} : Text.uppercase token = word → Spells (.keyword word) token none
  | fixedRegister {token : String} {index : Nat} : IsRegister token index →
      Spells (.fixedRegister ("V" ++ Numeral.ofNat index)) token none

/-- **Tokens spell slots one by one;** the values are those of all positions, in order. -/
inductive Spells : List Slot → List String → List (Field × Nat) → Prop
  | nil : Spells [] [] []
  | cons {slot : Slot} {token : String} {value : Option (Field × Nat)} {slots : List Slot}
      {given : List String} {values : List (Field × Nat)} : slot.Spells token value →
      Spells slots given values → Spells (slot :: slots) (token :: given) (value.toList ++ values)

/-! ## The values of operands -/

/-- The value that an operand brings to a slot. -/
def Slot.placed (slot : Slot) (operand : Operand) : Option (Field × Nat) :=
  match slot.field, operand.value? with
  | some (.known field), some value => some (field, value)
  | _, _ => none

/-- The values that operands bring to slots. -/
def placements : List Slot → List Operand → List (Field × Nat)
  | slot :: slots, operand :: operands =>
    (slot.placed operand).toList ++ placements slots operands
  | _, _ => []

/-- **Tokens spell what their operands are accepted as.**  A number that is too large for a word
    is no operand, so the values have to fit one. -/
lemma Slot.WellFormed.spells_iff {fields : List Field} {slot : Slot} (h : slot.WellFormed fields)
    {token : String} {value : Option (Field × Nat)} :
    (slot.accepts (Operand.shape token) = .ok true ∧ slot.placed (Operand.shape token) = value) ↔
      slot.Spells token value ∧ ∀ q ∈ value, q.2 < 0x10000 := by
  constructor
  · rintro ⟨ha, rfl⟩
    cases h with
    | @register field _ =>
        obtain ⟨text, index, ho⟩ := accepts_register_iff.mp ha
        obtain ⟨-, hr, hlt⟩ := Operand.shape_eq_register_iff.mp ho
        rw [ho]
        exact ⟨.register hr, by simpa [placed, Slot.register, Operand.value?] using hlt⟩
    | @immediate field _ =>
        obtain ⟨text, v, ho⟩ := accepts_immediate_iff.mp ha
        obtain ⟨-, hl, hlt⟩ := Operand.shape_eq_immediate_iff.mp ho
        rw [ho]
        exact ⟨.immediate hl, by simpa [placed, Slot.immediate, Operand.value?] using hlt⟩
    | @keyword word _ =>
        obtain ⟨hu, -⟩ := Operand.shape_eq_keyword_iff.mp (accepts_keyword_iff.mp ha)
        exact ⟨.keyword hu, by simp [placed, Slot.keyword]⟩
    | @fixedRegister index hindex =>
        obtain ⟨text, ho⟩ := (accepts_fixedRegister_iff hindex).mp ha
        obtain ⟨-, hr, -⟩ := Operand.shape_eq_register_iff.mp ho
        exact ⟨.fixedRegister hr, by simp [placed, Slot.fixedRegister]⟩
  · rintro ⟨hs, hlt⟩
    cases hs with
    | @register field _ index hr =>
        have ho := Operand.shape_eq_register_iff.mpr ⟨rfl, hr, hlt _ rfl⟩
        rw [ho]
        exact ⟨accepts_register_iff.mpr ⟨_, _, rfl⟩, rfl⟩
    | @immediate field _ v hl =>
        have ho := Operand.shape_eq_immediate_iff.mpr ⟨rfl, hl, hlt _ rfl⟩
        rw [ho]
        exact ⟨accepts_immediate_iff.mpr ⟨_, _, rfl⟩, rfl⟩
    | @keyword word _ hu =>
        have ho := Operand.shape_eq_keyword_iff.mpr ⟨hu, keyword_wellFormed_iff.mp h⟩
        rw [ho]
        exact ⟨accepts_keyword_iff.mpr rfl, rfl⟩
    | @fixedRegister _ index hr =>
        have hindex := fixedRegister_wellFormed_iff.mp h
        have ho := Operand.shape_eq_register_iff.mpr ⟨rfl, hr, hindex⟩
        rw [ho]
        exact ⟨(accepts_fixedRegister_iff hindex).mpr ⟨_, rfl⟩, rfl⟩

/-- **So do lists of tokens,** slot by slot. -/
lemma spells_iff {fields : List Field} {slots : List Slot} {given : List String}
    {values : List (Field × Nat)} (h : ∀ slot ∈ slots, slot.WellFormed fields) :
    (List.Forall₂ (fun slot operand => slot.accepts operand = .ok true) slots
        (given.map Operand.shape) ∧ placements slots (given.map Operand.shape) = values) ↔
      Spells slots given values ∧ ∀ q ∈ values, q.2 < 0x10000 := by
  constructor
  · rintro ⟨ha, rfl⟩
    induction slots generalizing given with
    | nil =>
        obtain rfl := List.map_eq_nil_iff.mp (List.forall₂_nil_left_iff.mp ha)
        exact ⟨.nil, by simp [placements]⟩
    | cons slot slots ih =>
        rcases given with _ | ⟨token, given⟩
        · simp at ha
        · rw [List.map_cons, List.forall₂_cons] at ha
          obtain ⟨hs, hlt⟩ := (h slot List.mem_cons_self).spells_iff.mp ⟨ha.1, rfl⟩
          obtain ⟨hss, hlts⟩ := ih (fun s hm => h s (List.mem_cons_of_mem _ hm)) ha.2
          refine ⟨.cons hs hss, fun q hq => ?_⟩
          rcases List.mem_append.mp hq with hq | hq
          · exact hlt q (Option.mem_toList.mp hq)
          · exact hlts q hq
  · rintro ⟨hs, hlt⟩
    induction hs with
    | nil => exact ⟨.nil, rfl⟩
    | @cons slot token value slots given values hs _ ih =>
        obtain ⟨ha, hp⟩ := (h slot List.mem_cons_self).spells_iff.mpr
          ⟨hs, fun q hq => hlt q (List.mem_append_left _ (Option.mem_toList.mpr hq))⟩
        obtain ⟨has, hps⟩ := ih (fun s hm => h s (List.mem_cons_of_mem _ hm))
          fun q hq => hlt q (List.mem_append_right _ hq)
        refine ⟨.cons ha has, ?_⟩
        rw [List.map_cons, placements, hp, hps]

/-- **Tokens that write a word as a form:** they spell its slots, with values within their fields,
    and the word has the digits of the form and these values in their fields. -/
structure Form.Writes (form : Form) (given : List String) (values : List (Field × Nat))
    (w : Word) : Prop where
  /-- The tokens spell the slots. -/
  spelled : Spells form.slots given values
  /-- Every value is within its field. -/
  within : ∀ q ∈ values, q.2 ≤ q.1.limit
  /-- The word has the digits that the pattern fixes. -/
  digits : form.fits w.value = .ok true
  /-- The word has every value in its field. -/
  placed : ∀ q ∈ values, q ∈ form.extract w.value

/-- **A form that fills no field twice.** -/
def Form.FillsOnce (form : Form) : Prop := (form.slots.filterMap Slot.field).Nodup

instance (form : Form) : Decidable form.FillsOnce := inferInstanceAs (Decidable (List.Nodup _))

/-! ## Which fields are filled -/

/-- A value belongs to the field of its slot, and a slot with a field brings a value. -/
lemma Slot.Spells.field_eq {slot : Slot} {token : String} {value : Option (Field × Nat)}
    (h : slot.Spells token value) : slot.field = value.map fun q => .known q.1 := by
  cases h with
  | register => rfl
  | immediate => rfl
  | keyword => rfl
  | fixedRegister => rfl

/-- **The values belong to the fields of the slots,** in order. -/
lemma Spells.fields_eq {slots : List Slot} {given : List String} {values : List (Field × Nat)}
    (h : Spells slots given values) :
    slots.filterMap Slot.field = values.map fun q => FieldRef.known q.1 := by
  induction h with
  | nil => rfl
  | @cons slot token value _ _ _ hs _ ih =>
      rw [List.filterMap_cons, hs.field_eq, List.map_append, ← ih]
      cases value with
      | none => rfl
      | some q => rfl

lemma Spells.exists_value {slots : List Slot} {given : List String} {values : List (Field × Nat)}
    (h : Spells slots given values) {field : Field}
    (hf : ∃ slot ∈ slots, slot.field = some (.known field)) : ∃ q ∈ values, q.1 = field := by
  have hmem : FieldRef.known field ∈ slots.filterMap Slot.field := List.mem_filterMap.mpr hf
  rw [h.fields_eq, List.mem_map] at hmem
  obtain ⟨q, hq, hknown⟩ := hmem
  exact ⟨q, hq, FieldRef.known.inj hknown⟩

lemma Spells.unique {form : Form} (once : form.FillsOnce) {given : List String}
    {values : List (Field × Nat)} (h : Spells form.slots given values) :
    ∀ p ∈ values, ∀ q ∈ values, p.1 = q.1 → p.2 = q.2 := by
  have hnodup : (values.map Prod.fst).Nodup := by
    rw [Form.FillsOnce, h.fields_eq] at once
    refine List.Nodup.of_map FieldRef.known ?_
    rwa [List.map_map]
  intro p hp q hq hname
  rw [List.inj_on_of_nodup_map hnodup hp hq hname]

lemma Form.WellFormed.exists_span {form : Form} (hform : form.WellFormed) {given : List String}
    {values : List (Field × Nat)} (h : Spells form.slots given values) {q : Field × Nat}
    (hq : q ∈ values) : ∃ p ∈ form.layout, p.1 = q.1 := by
  have hmem : FieldRef.known q.1 ∈ form.slots.filterMap Slot.field := by
    rw [h.fields_eq]
    exact List.mem_map_of_mem (f := fun q => FieldRef.known q.1) hq
  obtain ⟨slot, hs, hfield⟩ := List.mem_filterMap.mp hmem
  exact List.mem_map.mp ((hform.slots slot hs).mem_of_field hfield)

end Chip8
