import Chip8.Table
import Chip8.Proofs.Operands
import Chip8.Proofs.Packing

/-!
# Well-formed instruction tables

The model takes tables as they come, and a row that is unfit for some use of it is a fault when
it is used so.  This file says which tables are fit for every use.

* `IsMnemonic` is a name that stands as a token of its own in a line, in capitals, and cannot be
  confused with a raw word.
* `Slot.WellFormed` and `Form.WellFormed` are fit rows: the pattern is regular, each field has
  the width its name promises, and slots and fields match.
* `Table.WellFormed` adds that of two rows with one mnemonic at most one accepts a given list of
  operands, so that the order of the rows does not matter.

On fit rows acceptance never fails, and `accepts_register_iff` and its companions say which
operands each slot takes.  The last condition is about all lists of operands; for closed tables
it is decided slot by slot (`Form.Overlaps`, `wellFormed_of_apart`).
-/

namespace Chip8

/-! ## Fit rows -/

/-- **A mnemonic that can be written in a line:** a token in capitals without margins, and not
    four hexadecimal digits. -/
structure IsMnemonic (name : String) : Prop where
  /-- It is not empty and holds no separator. -/
  token : IsToken name.toList
  /-- It is written in capitals. -/
  capitals : Text.uppercase name = name
  /-- No blank stands at either end. -/
  trimmed : Text.strip name = name
  /-- It is no raw word. -/
  notWord : Word.hexValue? name.toList = none

/-- **A slot that is fit for the fields of a pattern.**  It fills one of them, or it asks for a
    keyword, or for one register under its printed name. -/
inductive Slot.WellFormed (fields : List Field) : Slot → Prop
  | register {field : Field} : field ∈ fields → WellFormed fields (.register field)
  | immediate {field : Field} : field ∈ fields → WellFormed fields (.immediate field)
  | keyword {word : String} : word ∈ keywords → WellFormed fields (.keyword word)
  | fixedRegister {index : Nat} : index < 0x10000 →
      WellFormed fields (.fixedRegister ("V" ++ Numeral.ofNat index))

/-- **A fit row.** -/
structure Form.WellFormed (form : Form) : Prop where
  /-- The mnemonic can be written. -/
  mnemonic : IsMnemonic form.mnemonic
  /-- The pattern has four characters and names no field twice. -/
  regular : form.Regular
  /-- Every field has the width of its name. -/
  widths : ∀ p ∈ form.layout, p.2.width = p.1.width
  /-- Every slot is fit for the fields of the pattern. -/
  slots : ∀ slot ∈ form.slots, slot.WellFormed (form.layout.map Prod.fst)
  /-- Every field is filled by some slot. -/
  filled : ∀ p ∈ form.layout, ∃ slot ∈ form.slots, slot.field = some (.known p.1)

/-- **A fit table:** fit rows, no two of which accept the same operands under one mnemonic. -/
structure Table.WellFormed (table : Table) : Prop where
  /-- Every row is fit. -/
  forms : ∀ form ∈ table, form.WellFormed
  /-- Of two rows with one mnemonic at most one accepts a list of operands. -/
  exclusive : table.Pairwise fun f g => f.mnemonic = g.mnemonic →
    ∀ operands, ¬ (f.accepts operands = .ok true ∧ g.accepts operands = .ok true)

lemma Field.le_limit_iff {field : Field} {value : Nat} :
    value ≤ field.limit ↔ value < 2 ^ field.width := by
  have hpos := Nat.two_pow_pos field.width
  rw [limit, Nat.one_shiftLeft]
  omega

lemma Field.limit_lt (field : Field) : field.limit < 0x10000 := by
  cases field <;> decide

/-! ## Acceptance by a slot -/

namespace Slot

variable {fields : List Field} {operand : Operand}

lemma accepts_register_iff {field : Field} :
    (register field).accepts operand = .ok true ↔ ∃ text index, operand = .register text index := by
  cases operand <;> simp [accepts, register, Operand.kind]

lemma accepts_immediate_iff {field : Field} :
    (immediate field).accepts operand = .ok true ↔
      ∃ text value, operand = .immediate text value := by
  cases operand <;> simp [accepts, immediate, Operand.kind]

lemma accepts_keyword_iff {word : String} :
    (keyword word).accepts operand = .ok true ↔ operand = .keyword word := by
  simp [accepts, keyword]

lemma readRegister_printed {index : Nat} (h : index < 0x10000) :
    readRegister ("V" ++ Numeral.ofNat index) = .ok (some index) := by
  have hlist : ("V" ++ Numeral.ofNat index).toList = 'V' :: Nat.toDigits 10 index := by simp
  have hsigil : isRegisterSigil 'V' = true := rfl
  rw [readRegister, hlist, readIndex, if_pos hsigil, readDigits,
    if_pos (Numeral.isNumeral_toDigits index), if_pos (Numeral.length_toDigits_le h),
    Numeral.value_toDigits, Option.filter_some, if_pos (by simpa using h)]

lemma accepts_fixedRegister_iff {index : Nat} (h : index < 0x10000) :
    (fixedRegister ("V" ++ Numeral.ofNat index)).accepts operand = .ok true ↔
      ∃ text, operand = .register text index := by
  cases operand <;>
    simp [accepts, fixedRegister, Operand.kind, Operand.value?, readRegister_printed h, Except.map]

lemma WellFormed.accepts_ok {slot : Slot} (h : slot.WellFormed fields) (operand : Operand) :
    ∃ taken, slot.accepts operand = .ok taken := by
  cases h with
  | register => exact ⟨_, rfl⟩
  | immediate => exact ⟨_, rfl⟩
  | keyword => exact ⟨_, rfl⟩
  | @fixedRegister index hindex =>
      have hunfold : (Slot.fixedRegister ("V" ++ Numeral.ofNat index)).accepts operand =
          if operand.kind = .register then .ok (operand.value? == some index) else .ok false := by
        simp [accepts, Slot.fixedRegister, readRegister_printed hindex, Except.map]
      rw [hunfold]
      split_ifs
      · exact ⟨_, rfl⟩
      · exact ⟨_, rfl⟩

/-- **What a fit slot accepts has the kind of the slot,** and if the slot has a word of its own, it
    is the word that the operand is printed as. -/
lemma WellFormed.normal_of_accepts {slot : Slot} (h : slot.WellFormed fields)
    (ha : slot.accepts operand = .ok true) :
    operand.kind = slot.kind ∧ ∀ word ∈ slot.literal, word = operand.normal := by
  cases h with
  | register =>
      obtain ⟨text, index, rfl⟩ := accepts_register_iff.mp ha
      exact ⟨rfl, by simp [Slot.register]⟩
  | immediate =>
      obtain ⟨text, value, rfl⟩ := accepts_immediate_iff.mp ha
      exact ⟨rfl, by simp [Slot.immediate]⟩
  | keyword =>
      obtain rfl := accepts_keyword_iff.mp ha
      exact ⟨rfl, by simp [Slot.keyword, Operand.normal]⟩
  | fixedRegister hindex =>
      obtain ⟨text, rfl⟩ := (accepts_fixedRegister_iff hindex).mp ha
      exact ⟨rfl, by simp [Slot.fixedRegister, Operand.normal]⟩

lemma WellFormed.mem_of_field {slot : Slot} (h : slot.WellFormed fields) {field : Field}
    (hf : slot.field = some (.known field)) : field ∈ fields := by
  cases h with
  | register hmem =>
      obtain rfl := FieldRef.known.inj (Option.some.inj hf)
      exact hmem
  | immediate hmem =>
      obtain rfl := FieldRef.known.inj (Option.some.inj hf)
      exact hmem
  | keyword => simp [Slot.keyword] at hf
  | fixedRegister => simp [Slot.fixedRegister] at hf

lemma WellFormed.signature_ok {slot : Slot} (h : slot.WellFormed fields) :
    ∃ text, slot.signature = .ok text := by
  cases h with
  | register => exact ⟨_, rfl⟩
  | immediate => exact ⟨_, rfl⟩
  | keyword => exact ⟨_, rfl⟩
  | fixedRegister => exact ⟨_, rfl⟩

end Slot

lemma exists_mapM_eq_ok {α β ε : Type} {f : α → Except ε β} {l : List α}
    (h : ∀ a ∈ l, ∃ b, f a = .ok b) : ∃ bs, l.mapM f = .ok bs := by
  induction l with
  | nil => exact ⟨[], rfl⟩
  | cons a l ih =>
      obtain ⟨b, hb⟩ := h a List.mem_cons_self
      obtain ⟨bs, hbs⟩ := ih fun x hx => h x (List.mem_cons_of_mem _ hx)
      refine ⟨b :: bs, ?_⟩
      rw [List.mapM_cons, hb, hbs]
      rfl

/-! ## Acceptance by a form -/

namespace Form

lemma slotsAccept_iff {slots : List Slot} {operands : List Operand}
    (hlen : operands.length = slots.length) :
    slotsAccept slots operands = .ok true ↔
      List.Forall₂ (fun slot operand => slot.accepts operand = .ok true) slots operands := by
  induction slots generalizing operands with
  | nil =>
      obtain rfl := List.length_eq_zero_iff.mp hlen
      simp [slotsAccept]
  | cons slot slots ih =>
      rcases operands with _ | ⟨operand, operands⟩
      · simp at hlen
      · rw [slotsAccept, List.forall₂_cons]
        split
        · next h =>
            rw [ih (Nat.succ.inj hlen)]
            exact (and_iff_right h).symm
        · next h =>
            -- The answer may be a refusal or a fault; neither is `true`.
            constructor
            · intro htrue
              exact absurd htrue h
            · rintro ⟨htrue, -⟩
              exact absurd htrue h

/-- **Operands are accepted slot by slot.** -/
lemma accepts_iff {form : Form} {operands : List Operand} :
    form.accepts operands = .ok true ↔
      List.Forall₂ (fun slot operand => slot.accepts operand = .ok true) form.slots operands := by
  rw [accepts]
  split_ifs with hlen
  · exact slotsAccept_iff hlen
  · constructor
    · intro h
      simp at h
    · intro h
      exact absurd h.length_eq.symm hlen

/-- **A form takes the operand in a place:** it has a slot there, which accepts it. -/
def TakesAt (form : Form) (operands : List Operand) (place : Nat) : Prop :=
  ∃ slot operand, form.slots[place]? = some slot ∧ operands[place]? = some operand ∧
    slot.accepts operand = .ok true

/-- **Operands are accepted if there is one for each slot** and each is taken in its place. -/
lemma accepts_iff_takesAt {form : Form} {operands : List Operand} :
    form.accepts operands = .ok true ↔
      form.slots.length = operands.length ∧ ∀ k < operands.length, form.TakesAt operands k := by
  rw [accepts_iff, List.forall₂_iff_get]
  refine and_congr_right fun hlen => ?_
  constructor
  · intro h k hk
    exact ⟨_, _, List.getElem?_eq_getElem (hlen ▸ hk), List.getElem?_eq_getElem hk,
      h k (hlen ▸ hk) hk⟩
  · intro h k hk hk'
    obtain ⟨slot, operand, hslot, hoperand, ha⟩ := h k hk'
    rw [List.getElem?_eq_getElem hk, Option.some.injEq] at hslot
    rw [List.getElem?_eq_getElem hk', Option.some.injEq] at hoperand
    rw [List.get_eq_getElem, List.get_eq_getElem, hslot, hoperand]
    exact ha

lemma slotsAccept_ok {fields : List Field} {slots : List Slot}
    (h : ∀ slot ∈ slots, slot.WellFormed fields) (operands : List Operand) :
    ∃ taken, slotsAccept slots operands = .ok taken := by
  induction slots generalizing operands with
  | nil => exact ⟨_, rfl⟩
  | cons slot slots ih =>
      rcases operands with _ | ⟨operand, operands⟩
      · exact ⟨_, rfl⟩
      · obtain ⟨taken, ht⟩ := (h slot List.mem_cons_self).accepts_ok operand
        rw [slotsAccept, ht]
        cases taken with
        | true => exact ih (fun s hm => h s (List.mem_cons_of_mem _ hm)) operands
        | false => exact ⟨_, rfl⟩

lemma WellFormed.accepts_ok {form : Form} (h : form.WellFormed) (operands : List Operand) :
    ∃ taken, form.accepts operands = .ok taken := by
  rw [accepts]
  split_ifs
  · exact slotsAccept_ok h.slots operands
  · exact ⟨_, rfl⟩

lemma WellFormed.accepts_eq_false {form : Form} (h : form.WellFormed) {operands : List Operand}
    (hno : form.accepts operands ≠ .ok true) : form.accepts operands = .ok false := by
  obtain ⟨taken, ht⟩ := h.accepts_ok operands
  cases taken with
  | true => exact absurd ht hno
  | false => exact ht

lemma WellFormed.signature_ok {form : Form} (h : form.WellFormed) :
    ∃ text, form.signature = .ok text := by
  obtain ⟨texts, ht⟩ := exists_mapM_eq_ok fun slot hs => (h.slots slot hs).signature_ok
  refine ⟨", ".intercalate texts, ?_⟩
  rw [signature, ht]
  rfl

end Form

/-! ## The mnemonics of a table -/

lemma Table.mem_forms {table : Table} {mnemonic : String} {form : Form} :
    form ∈ table.forms mnemonic ↔ form ∈ table ∧ form.mnemonic = Text.uppercase mnemonic := by
  simp [forms, named]

lemma Table.isMnemonic_iff {table : Table} {token : String} :
    table.isMnemonic token = true ↔ ∃ form ∈ table, form.mnemonic = Text.uppercase token := by
  rw [isMnemonic, Bool.not_eq_true', List.isEmpty_eq_false_iff_exists_mem]
  exact exists_congr fun form => mem_forms

/-! ## Deciding fitness -/

/-- Whether some operand may be accepted by both of two slots. -/
def Slot.overlaps (a b : Slot) : Bool :=
  a.kind == b.kind &&
    match a.literal, b.literal with
    | some u, some v => u == v
    | _, _ => true

/-- Whether some list of operands may be accepted by both of two forms. -/
def Form.Overlaps (f g : Form) : Prop :=
  List.Forall₂ (fun a b => a.overlaps b = true) f.slots g.slots

instance (f g : Form) : Decidable (f.Overlaps g) := inferInstanceAs (Decidable (List.Forall₂ _ _ _))

lemma Slot.overlaps_of_accepts {fields fields' : List Field} {a b : Slot} {operand : Operand}
    (ha : a.WellFormed fields) (hb : b.WellFormed fields')
    (hta : a.accepts operand = .ok true) (htb : b.accepts operand = .ok true) :
    a.overlaps b = true := by
  obtain ⟨hkind, hword⟩ := ha.normal_of_accepts hta
  obtain ⟨hkind', hword'⟩ := hb.normal_of_accepts htb
  rw [overlaps, ← hkind, ← hkind', beq_self_eq_true, Bool.true_and]
  split
  · next u v hu hv => rw [beq_iff_eq, hword u hu, hword' v hv]
  · rfl

lemma Slot.forall₂_overlaps {fields fields' : List Field} {as bs : List Slot}
    {operands : List Operand} (ha : ∀ a ∈ as, a.WellFormed fields)
    (hb : ∀ b ∈ bs, b.WellFormed fields')
    (hta : List.Forall₂ (fun slot operand => slot.accepts operand = .ok true) as operands)
    (htb : List.Forall₂ (fun slot operand => slot.accepts operand = .ok true) bs operands) :
    List.Forall₂ (fun a b => a.overlaps b = true) as bs := by
  induction hta generalizing bs with
  | nil =>
      cases htb with
      | nil => exact .nil
  | @cons a operand as operands ht _ ih =>
      cases htb with
      | @cons b _ bs _ ht' htb =>
          have hhead :=
            overlaps_of_accepts (ha a List.mem_cons_self) (hb b List.mem_cons_self) ht ht'
          refine .cons hhead (ih ?_ ?_ htb)
          · exact fun s hs => ha s (List.mem_cons_of_mem _ hs)
          · exact fun s hs => hb s (List.mem_cons_of_mem _ hs)

lemma Form.overlaps_of_accepts {f g : Form} {operands : List Operand} (hf : f.WellFormed)
    (hg : g.WellFormed) (htf : f.accepts operands = .ok true)
    (htg : g.accepts operands = .ok true) : f.Overlaps g :=
  Slot.forall₂_overlaps hf.slots hg.slots (accepts_iff.mp htf) (accepts_iff.mp htg)

/-- **A table is fit if its rows are and no two of one mnemonic overlap.** -/
theorem Table.wellFormed_of_apart {table : Table} (forms : ∀ form ∈ table, form.WellFormed)
    (apart : table.Pairwise fun f g => f.mnemonic = g.mnemonic → ¬ f.Overlaps g) :
    table.WellFormed := by
  refine ⟨forms, apart.imp_of_mem fun {f g} hf hg h hname operands => ?_⟩
  rintro ⟨htf, htg⟩
  exact h hname (Form.overlaps_of_accepts (forms f hf) (forms g hg) htf htg)

/-- The fitness of a slot, computed. -/
def Slot.isWellFormed (fields : List Field) (slot : Slot) : Bool :=
  match slot.kind, slot.field, slot.literal with
  | .register, some (.known field), none => fields.contains field
  | .immediate, some (.known field), none => fields.contains field
  | .keyword, none, some word => keywords.contains word
  | .register, none, some word =>
    match index? word.toList with
    | some index => word == "V" ++ Numeral.ofNat index
    | none => false
  | _, _, _ => false

lemma Slot.isWellFormed_iff {fields : List Field} {slot : Slot} :
    slot.isWellFormed fields = true ↔ slot.WellFormed fields := by
  constructor
  · intro h
    obtain ⟨kind, field, literal⟩ := slot
    simp only [isWellFormed] at h
    split at h
    · exact .register (by simpa using h)
    · exact .immediate (by simpa using h)
    · exact .keyword (by simpa using h)
    · next word =>
        split at h
        · next index hindex =>
            have hlt := (index?_eq_some_iff.mp hindex).2
            rw [beq_iff_eq] at h
            subst h
            exact .fixedRegister hlt
        · simp at h
    · simp at h
  · intro h
    cases h with
    | register h => simpa [isWellFormed, Slot.register] using h
    | immediate h => simpa [isWellFormed, Slot.immediate] using h
    | keyword h => simpa [isWellFormed, Slot.keyword] using h
    | @fixedRegister index h =>
        have hindex : index? ("V" ++ Numeral.ofNat index).toList = some index :=
          index?_eq_some_iff.mpr ⟨isRegister_printed index, h⟩
        simp only [isWellFormed, Slot.fixedRegister, hindex, beq_self_eq_true]

lemma Slot.keyword_wellFormed_iff {fields : List Field} {word : String} :
    (Slot.keyword word).WellFormed fields ↔ word ∈ keywords := by
  rw [← isWellFormed_iff]
  simp [isWellFormed, Slot.keyword]

lemma Slot.fixedRegister_wellFormed_iff {fields : List Field} {index : Nat} :
    (Slot.fixedRegister ("V" ++ Numeral.ofNat index)).WellFormed fields ↔ index < 0x10000 := by
  refine ⟨fun h => ?_, .fixedRegister⟩
  rw [← isWellFormed_iff] at h
  simp only [isWellFormed, Slot.fixedRegister] at h
  split at h
  · next other hother =>
      obtain ⟨hr, hlt⟩ := index?_eq_some_iff.mp hother
      rwa [hr.unique (isRegister_printed index)] at hlt
  · simp at h

instance (fields : List Field) (slot : Slot) : Decidable (slot.WellFormed fields) :=
  decidable_of_iff _ Slot.isWellFormed_iff

instance (cs : List Char) : Decidable (IsToken cs) :=
  decidable_of_iff (cs.isEmpty = false ∧ (cs.all fun c => !isSeparator c) = true)
    (by simp [IsToken])

instance (name : String) : Decidable (IsMnemonic name) :=
  decidable_of_iff
    (IsToken name.toList ∧ Text.uppercase name = name ∧ Text.strip name = name ∧
      Word.hexValue? name.toList = none)
    ⟨fun ⟨h1, h2, h3, h4⟩ => ⟨h1, h2, h3, h4⟩, fun ⟨h1, h2, h3, h4⟩ => ⟨h1, h2, h3, h4⟩⟩

instance (form : Form) : Decidable form.Regular :=
  decidable_of_iff (form.pattern.toList.length = 4 ∧ Pattern.HasDistinctFields form.pattern)
    ⟨fun ⟨h1, h2⟩ => ⟨h1, h2⟩, fun ⟨h1, h2⟩ => ⟨h1, h2⟩⟩

instance (form : Form) : Decidable form.WellFormed :=
  decidable_of_iff
    (IsMnemonic form.mnemonic ∧ form.Regular ∧ (∀ p ∈ form.layout, p.2.width = p.1.width) ∧
      (∀ slot ∈ form.slots, slot.WellFormed (form.layout.map Prod.fst)) ∧
      ∀ p ∈ form.layout, ∃ slot ∈ form.slots, slot.field = some (.known p.1))
    ⟨fun ⟨h1, h2, h3, h4, h5⟩ => ⟨h1, h2, h3, h4, h5⟩,
      fun ⟨h1, h2, h3, h4, h5⟩ => ⟨h1, h2, h3, h4, h5⟩⟩

end Chip8
