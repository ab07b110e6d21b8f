import Chip8.Encoding
import Chip8.Proofs.Classification
import Chip8.Proofs.Spelling
import Mathlib.Data.List.Pairwise

/-!
# Selecting and filling a form

On a fit table the encoding of a mnemonic with its operand tokens has no failures but
rejections, and this file says when it succeeds and with what word.

* `Table.accepting?_eq_some` is the selection: since the rows of one mnemonic exclude each other
  (`Table.WellFormed.eq_of_accepts`), the first row that accepts the operands is the only one.
* `Table.fillFields_eq` and `Table.fillFields_refused` are the filling: every value within its
  field is set, the first that is beyond it is rejected.
* `Table.blamed_eq` is the search for the operand to blame, which has taken every operand that it
  leaves behind.  `Table.encode_refused` says what is blamed if no row accepts the operands.
* `Table.WellFormed.encode_of_writes` is what comes out of them: tokens that write a word are
  encoded as this word.  `Table.WellFormed.encode_cases` is the converse for rows that fill no
  field twice: everything else is rejected.
* `Table.lineWord_instruction` and `Table.lineWord_raw` are the two kinds of lines.
-/

namespace Chip8

namespace Table

/-! ## Selection -/

section Selection

variable {operands : List Operand} {forms : List Form}

/-- **The one form that accepts the operands is selected,** however often it is listed. -/
lemma accepting?_eq_some {form : Form} (hok : ∀ f ∈ forms, ∃ taken, f.accepts operands = .ok taken)
    (hu : ∀ f ∈ forms, f.accepts operands = .ok true → f = form)
    (hm : form ∈ forms) (ha : form.accepts operands = .ok true) :
    accepting? operands forms = .ok (some form) := by
  induction forms with
  | nil => simp at hm
  | cons first rest ih =>
      rw [List.forall_mem_cons] at hok hu
      obtain ⟨taken, htaken⟩ := hok.1
      rw [accepting?, htaken]
      cases taken with
      | true => rw [hu.1 htaken]
      | false =>
          have hrest : form ∈ rest := by
            rcases List.mem_cons.mp hm with rfl | hrest
            · rw [ha] at htaken
              cases htaken
            · exact hrest
          exact ih hok.2 hu.2 hrest

lemma accepting?_eq_none (hok : ∀ f ∈ forms, ∃ taken, f.accepts operands = .ok taken)
    (hno : ∀ f ∈ forms, f.accepts operands ≠ .ok true) :
    accepting? operands forms = .ok none := by
  induction forms with
  | nil => rfl
  | cons first rest ih =>
      obtain ⟨taken, htaken⟩ := hok first List.mem_cons_self
      have hfirst : taken = false := by
        rw [← Bool.not_eq_true]
        rintro rfl
        exact hno first List.mem_cons_self htaken
      rw [accepting?, htaken, hfirst]
      exact ih (fun f hf => hok f (List.mem_cons_of_mem _ hf))
        fun f hf => hno f (List.mem_cons_of_mem _ hf)

/-- A form that is selected accepts the operands. -/
lemma accepting?_spec {form : Form} (h : accepting? operands forms = .ok (some form)) :
    form ∈ forms ∧ form.accepts operands = .ok true := by
  induction forms with
  | nil => cases h
  | cons first rest ih =>
      rw [accepting?] at h
      split at h
      · next ha =>
          obtain rfl : first = form := Option.some.inj (Except.ok.inj h)
          exact ⟨List.mem_cons_self, ha⟩
      · obtain ⟨hm, ha⟩ := ih h
        exact ⟨List.mem_cons_of_mem _ hm, ha⟩
      · cases h

end Selection

/-- **Of the rows with one mnemonic only one accepts a list of operands.** -/
lemma WellFormed.eq_of_accepts {table : Table} (h : table.WellFormed) {f g : Form} (hf : f ∈ table)
    (hg : g ∈ table) (hn : f.mnemonic = g.mnemonic) {operands : List Operand}
    (haf : f.accepts operands = .ok true) (hag : g.accepts operands = .ok true) : f = g := by
  have symm : Std.Symm fun f g : Form => f.mnemonic = g.mnemonic →
      ∀ operands, ¬ (f.accepts operands = .ok true ∧ g.accepts operands = .ok true) :=
    ⟨fun f g hfg hname operands hboth => hfg hname.symm operands hboth.symm⟩
  by_contra hne
  exact h.exclusive.forall hf hg hne hn operands ⟨haf, hag⟩

/-! ## Filling -/

/-- **Values set one after the other.**  Of two for one field the later counts. -/
def setAll (values : Field → Int) (placed : List (Field × Nat)) : Field → Int :=
  placed.foldl (fun values q => setField values q.1 q.2) values

lemma setAll_cons (values : Field → Int) (q : Field × Nat) (placed : List (Field × Nat)) :
    setAll values (q :: placed) = setAll (setField values q.1 q.2) placed := rfl

/-- What is set last does not change what was set for other fields. -/
lemma setAll_of_notMem {values : Field → Int} {placed : List (Field × Nat)} {field : Field}
    (h : field ∉ placed.map Prod.fst) : setAll values placed field = values field := by
  induction placed generalizing values with
  | nil => rfl
  | cons q placed ih =>
      rw [List.map_cons, List.mem_cons, not_or] at h
      rw [setAll_cons, ih h.2, setField, if_neg h.1]

/-- **A value is kept if no field gets two different ones.** -/
lemma setAll_of_mem {values : Field → Int} {placed : List (Field × Nat)}
    (hfun : ∀ p ∈ placed, ∀ q ∈ placed, p.1 = q.1 → p.2 = q.2) {q : Field × Nat}
    (hq : q ∈ placed) : setAll values placed q.1 = q.2 := by
  induction placed generalizing values with
  | nil => simp at hq
  | cons p placed ih =>
      have hrest := fun a ha b hb =>
        hfun a (List.mem_cons_of_mem p ha) b (List.mem_cons_of_mem p hb)
      rw [setAll_cons]
      rcases List.mem_cons.mp hq with rfl | hm
      · by_cases hagain : q.1 ∈ placed.map Prod.fst
        · obtain ⟨r, hr, hname⟩ := List.mem_map.mp hagain
          have hvalue := hfun q List.mem_cons_self r (List.mem_cons_of_mem _ hr) hname.symm
          have hsame : r = q := Prod.ext hname hvalue.symm
          exact ih hrest (hsame ▸ hr)
        · rw [setAll_of_notMem hagain, setField, if_pos rfl]
      · exact ih hrest hm

lemma setAll_range {values : Field → Int} {placed : List (Field × Nat)}
    (hv : ∀ field, 0 ≤ values field ∧ values field < 2 ^ field.width)
    (hlimit : ∀ q ∈ placed, q.2 ≤ q.1.limit) (field : Field) :
    0 ≤ setAll values placed field ∧ setAll values placed field < 2 ^ field.width := by
  induction placed generalizing values with
  | nil => exact hv field
  | cons q placed ih =>
      rw [setAll_cons]
      refine ih (fun other => ?_) fun p hp => hlimit p (List.mem_cons_of_mem _ hp)
      rw [setField]
      split_ifs with hother
      · have hle : q.2 < 2 ^ q.1.width := Field.le_limit_iff.mp (hlimit q List.mem_cons_self)
        rw [hother]
        exact ⟨Int.natCast_nonneg _, by exact_mod_cast hle⟩
      · exact hv other

section Filling

variable {fields : List Field} {mnemonic : String} {given : List String}

/-- One step of the filling: a slot sets its value, if it brings one and the field allows it. -/
lemma fillFields_cons {slot : Slot} {operand : Operand} (h : slot.WellFormed fields)
    (ha : slot.accepts operand = .ok true) (slots : List Slot) (operands : List Operand)
    (values : Field → Int) :
    fillFields mnemonic given (slot :: slots) (operand :: operands) values =
      match slot.placed operand with
      | none => fillFields mnemonic given slots operands values
      | some (field, value) =>
        if value ≤ field.limit then
          fillFields mnemonic given slots operands (setField values field value)
        else .error (.rejected (.operands mnemonic given
          (.range operand.text (slot.literal.getD field.placeholder) field.limit))) := by
  cases h with
  | register =>
      obtain ⟨text, index, rfl⟩ := Slot.accepts_register_iff.mp ha
      rfl
  | immediate =>
      obtain ⟨text, value, rfl⟩ := Slot.accepts_immediate_iff.mp ha
      rfl
  | keyword => rfl
  | fixedRegister => rfl

/-- **Values within their fields are set,** in the order of the slots. -/
lemma fillFields_eq {slots : List Slot} {operands : List Operand}
    (h : ∀ slot ∈ slots, slot.WellFormed fields)
    (ha : List.Forall₂ (fun slot operand => slot.accepts operand = .ok true) slots operands)
    (hlimit : ∀ q ∈ placements slots operands, q.2 ≤ q.1.limit) (values : Field → Int) :
    fillFields mnemonic given slots operands values =
      .ok (setAll values (placements slots operands)) := by
  induction ha generalizing values with
  | nil => rfl
  | @cons slot operand slots operands ha _ ih =>
      have hstep := fun v => ih (fun s hs => h s (List.mem_cons_of_mem _ hs))
        (fun q hq => hlimit q (List.mem_append_right _ hq)) v
      rw [fillFields_cons (h slot List.mem_cons_self) ha, placements]
      cases hp : slot.placed operand with
      | none => exact hstep values
      | some q =>
          have hq : q.2 ≤ q.1.limit := hlimit q (by simp [placements, hp])
          simp only [if_pos hq]
          exact hstep _

/-- **The value in a place is beyond its field.** -/
def Exceeds (slots : List Slot) (operands : List Operand) (place : Nat) : Prop :=
  ∃ slot operand q, slots[place]? = some slot ∧ operands[place]? = some operand ∧
    slot.placed operand = some q ∧ q.1.limit < q.2

lemma exceeds_zero_iff {slot : Slot} {operand : Operand} {slots : List Slot}
    {operands : List Operand} :
    Exceeds (slot :: slots) (operand :: operands) 0 ↔
      ∃ q, slot.placed operand = some q ∧ q.1.limit < q.2 := by
  simp [Exceeds]

lemma exceeds_succ_iff {slot : Slot} {operand : Operand} {slots : List Slot}
    {operands : List Operand} {place : Nat} :
    Exceeds (slot :: slots) (operand :: operands) (place + 1) ↔ Exceeds slots operands place :=
  Iff.rfl

/-- **The first value beyond its field is rejected.** -/
lemma fillFields_refused (mnemonic : String) (given : List String) {slots : List Slot}
    {operands : List Operand}
    (h : ∀ slot ∈ slots, slot.WellFormed fields)
    (ha : List.Forall₂ (fun slot operand => slot.accepts operand = .ok true) slots operands)
    (hlimit : ¬ ∀ q ∈ placements slots operands, q.2 ≤ q.1.limit) (values : Field → Int) :
    ∃ error place, fillFields mnemonic given slots operands values =
        .error (.rejected (.operands mnemonic given error)) ∧
      Exceeds slots operands place ∧ (∀ k < place, ¬ Exceeds slots operands k) ∧
      error.offending = operands[place]?.map Operand.text := by
  induction ha generalizing values with
  | nil => exact absurd (by simp [placements]) hlimit
  | @cons slot operand slots operands ha _ ih =>
      have hrest := fun s hs => h s (List.mem_cons_of_mem slot hs)
      by_cases hfirst : Exceeds (slot :: slots) (operand :: operands) 0
      · obtain ⟨q, hp, hq⟩ := exceeds_zero_iff.mp hfirst
        refine ⟨.range operand.text (slot.literal.getD q.1.placeholder) q.1.limit, 0, ?_, hfirst,
          by simp, rfl⟩
        rw [fillFields_cons (h slot List.mem_cons_self) ha, hp]
        exact if_neg (by omega)
      · -- The first slot is filled or passed over, and what is beyond its field stands behind it.
        have hstep : ∃ values', fillFields mnemonic given (slot :: slots) (operand :: operands)
              values = fillFields mnemonic given slots operands values' ∧
            ¬ ∀ q ∈ placements slots operands, q.2 ≤ q.1.limit := by
          rw [fillFields_cons (h slot List.mem_cons_self) ha]
          rw [placements] at hlimit
          cases hp : slot.placed operand with
          | none =>
              rw [hp] at hlimit
              exact ⟨values, rfl, hlimit⟩
          | some q =>
              have hq : q.2 ≤ q.1.limit := by
                by_contra hlt
                exact hfirst (exceeds_zero_iff.mpr ⟨q, hp, by omega⟩)
              rw [hp, Option.toList_some, List.singleton_append, List.forall_mem_cons] at hlimit
              exact ⟨_, if_pos hq, fun hall => hlimit ⟨hq, hall⟩⟩
        obtain ⟨values', hvalues, hlimit'⟩ := hstep
        obtain ⟨error, place, hfill, hplace, hbefore, hoffending⟩ := ih hrest hlimit' values'
        refine ⟨error, place + 1, hvalues.trans hfill, hplace, fun k hk => ?_, hoffending⟩
        rcases k with _ | k
        · exact hfirst
        · rw [exceeds_succ_iff]
          exact hbefore k (by omega)

end Filling

lemma fill_eq {form : Form} (h : form.WellFormed) (given : List String) {operands : List Operand}
    (ha : form.accepts operands = .ok true)
    (hlimit : ∀ q ∈ placements form.slots operands, q.2 ≤ q.1.limit) :
    ∃ w, fill form given operands = .ok w ∧ form.fits w.value = .ok true ∧
      ∀ p ∈ form.layout, (Form.extractSpan w.value p.2 : Int) =
        setAll (fun _ => 0) (placements form.slots operands) p.1 := by
  set values := setAll (fun _ => 0) (placements form.slots operands) with hvalues
  have hrange : ∀ p ∈ form.layout, 0 ≤ values p.1 ∧ values p.1 < 2 ^ p.2.width := by
    intro p hp
    rw [h.widths p hp]
    exact setAll_range (fun field => ⟨le_refl _, Int.pow_pos (by decide)⟩) hlimit p.1
  obtain ⟨hlt, henc⟩ := h.regular.encode_eq hrange
  obtain ⟨hfits, hspans⟩ := (h.regular.encode_eq_ok_iff hrange _).mp henc
  refine ⟨_, ?_, hfits, hspans⟩
  rw [fill, fillFields_eq h.slots (Form.accepts_iff.mp ha) hlimit, ← hvalues]
  simp only [bind, Except.bind, henc, Except.mapError]

lemma fill_refused {form : Form} (h : form.WellFormed) (given : List String)
    {operands : List Operand} (ha : form.accepts operands = .ok true)
    (hlimit : ¬ ∀ q ∈ placements form.slots operands, q.2 ≤ q.1.limit) :
    ∃ error place, fill form given operands =
        .error (.rejected (.operands form.mnemonic given error)) ∧
      Exceeds form.slots operands place ∧ (∀ k < place, ¬ Exceeds form.slots operands k) ∧
      error.offending = operands[place]?.map Operand.text := by
  obtain ⟨error, place, he, hplace⟩ := fillFields_refused form.mnemonic given h.slots
    (Form.accepts_iff.mp ha) hlimit fun _ => 0
  refine ⟨error, place, ?_, hplace⟩
  rw [fill, he]
  rfl

/-! ## Blame -/

lemma takesAt_eq {forms : List Form} (h : ∀ form ∈ forms, form.WellFormed) (place : Nat)
    (operand : Operand) :
    ∃ taken, takesAt place operand forms = .ok taken ∧
      (taken = true ↔ ∃ form ∈ forms, ∃ slot, form.slots[place]? = some slot ∧
        slot.accepts operand = .ok true) := by
  induction forms with
  | nil => exact ⟨false, rfl, by simp⟩
  | cons form rest ih =>
      obtain ⟨later, hlater, hiff⟩ := ih fun f hf => h f (List.mem_cons_of_mem _ hf)
      simp only [takesAt, List.exists_mem_cons_iff]
      cases hslot : form.slots[place]? with
      | none => exact ⟨later, hlater, by simpa using hiff⟩
      | some slot =>
          obtain ⟨taken, ht⟩ := ((h form List.mem_cons_self).slots slot
            (List.mem_of_getElem? hslot)).accepts_ok operand
          cases taken with
          | true => exact ⟨true, by simp only [ht], by simp [ht]⟩
          | false => exact ⟨later, by simp only [ht, hlater], by simpa [ht] using hiff⟩

/-- **The operand in a place is to blame:** each one before it is taken in its place by some form,
    and it is either the last one or taken by none. -/
structure BlamesPlace (forms : List Form) (operands : List Operand) (place : Nat) : Prop where
  lt : place < operands.length
  before : ∀ k < place, ∃ form ∈ forms, form.TakesAt operands k
  here : place + 1 = operands.length ∨ ∀ form ∈ forms, ¬ form.TakesAt operands place

/-- **The operand that is found is to blame.**  All operands in front of the rest that is searched
    have been taken by some form. -/
lemma blamed_eq {forms : List Form} (h : ∀ form ∈ forms, form.WellFormed) {operands : List Operand}
    {rest : List Operand} {place : Nat} (hrest : operands.drop place = rest) (hne : rest ≠ [])
    (hbefore : ∀ k < place, ∃ form ∈ forms, form.TakesAt operands k) :
    ∃ blame, blamed forms place rest = .ok operands[blame]? ∧ BlamesPlace forms operands blame := by
  induction rest generalizing place with
  | nil => exact absurd rfl hne
  | cons operand rest ih =>
      have hlt : place < operands.length := by
        by_contra hle
        rw [List.drop_eq_nil_of_le (by omega)] at hrest
        cases hrest
      rw [List.drop_eq_getElem_cons hlt] at hrest
      obtain ⟨hoperand, hdrop⟩ := List.cons.inj hrest
      have hplace : operands[place]? = some operand := by
        rw [List.getElem?_eq_getElem hlt, hoperand]
      have hlast : rest.isEmpty = true ↔ place + 1 = operands.length := by
        rw [List.isEmpty_iff, ← hdrop, List.drop_eq_nil_iff]
        omega
      obtain ⟨taken, ht, hiff⟩ := takesAt_eq h place operand
      have htaken : taken = true ↔ ∃ form ∈ forms, form.TakesAt operands place := by
        simpa [Form.TakesAt, hplace] using hiff
      simp only [blamed, ht]
      split_ifs with hgoes
      · rw [Bool.and_eq_true] at hgoes
        refine ih hdrop (by simpa using hgoes.2) fun k hk => ?_
        rcases Nat.lt_succ_iff_lt_or_eq.mp hk with hk | rfl
        · exact hbefore k hk
        · exact htaken.mp hgoes.1
      · refine ⟨place, by rw [hplace], hlt, hbefore, ?_⟩
        rw [Bool.and_eq_true, not_and_or, htaken] at hgoes
        rcases hgoes with hno | hend
        · exact .inr fun form hform htakes => hno ⟨form, hform, htakes⟩
        · exact .inl (hlast.mp (by simpa using hend))

section Mismatch

variable {forms : List Form} (h : ∀ form ∈ forms, form.WellFormed) (mnemonic : String)
  (given : List String) {operands : List Operand}

include h

/-- If no form takes so many operands, none of them is blamed. -/
lemma mismatch_count (hcount : ∀ form ∈ forms, form.slots.length ≠ operands.length) :
    ∃ error, mismatch mnemonic forms given operands =
        .error (.rejected (.operands mnemonic given error)) ∧ error.offending = none := by
  obtain ⟨accepted, hacc⟩ := exists_mapM_eq_ok fun form hf => (h form hf).signature_ok
  have hnone : forms.filter (·.slots.length == operands.length) = [] :=
    List.filter_eq_nil_iff.mpr fun form hf => by simpa using hcount form hf
  obtain ⟨blame, hblame⟩ : ∃ blame, blamed [] 0 operands = .ok blame := by
    rcases operands with _ | ⟨operand, rest⟩
    · exact ⟨_, rfl⟩
    · exact ⟨_, rfl⟩
  simp only [mismatch, hacc, hnone, hblame, bind, Except.bind, Except.mapError]
  exact ⟨_, rfl, rfl⟩

/-- **Otherwise one operand is,** if there are any. -/
lemma mismatch_shape (hcount : ∃ form ∈ forms, form.slots.length = operands.length)
    (hne : operands ≠ []) :
    ∃ error place, mismatch mnemonic forms given operands =
        .error (.rejected (.operands mnemonic given error)) ∧
      BlamesPlace (forms.filter (·.slots.length == operands.length)) operands place ∧
      error.offending = operands[place]?.map Operand.text := by
  obtain ⟨accepted, hacc⟩ := exists_mapM_eq_ok fun form hf => (h form hf).signature_ok
  have hfit : ∀ form ∈ forms.filter (·.slots.length == operands.length), form.WellFormed :=
    fun form hf => h form (List.mem_of_mem_filter hf)
  obtain ⟨place, hblamed, hplace⟩ := blamed_eq hfit (List.drop_zero (l := operands)) hne (by simp)
  obtain ⟨form, hform, hlen⟩ := hcount
  have hmem : form ∈ forms.filter (·.slots.length == operands.length) := by simp [hform, hlen]
  obtain ⟨first, rest, hcandidates⟩ := List.exists_cons_of_ne_nil (List.ne_nil_of_mem hmem)
  have hlt : place < operands.length := hplace.lt
  have hoperand := List.getElem?_eq_getElem hlt
  refine ⟨.shape operands[place].text accepted, place, ?_, hplace, by rw [hoperand]; rfl⟩
  rw [hcandidates, hoperand] at hblamed
  simp only [mismatch, hacc, hcandidates, hblamed, bind, Except.bind, Except.mapError]

end Mismatch

/-! ## Encoding -/

lemma encode_eq {table : Table} {mnemonic : String} {given : List String}
    (hm : table.isMnemonic mnemonic = true) (hclass : Classified given) :
    table.encode mnemonic given =
      match accepting? (given.map Operand.shape) (table.forms mnemonic) with
      | .ok (some form) => fill form given (given.map Operand.shape)
      | .ok none => mismatch (Text.uppercase mnemonic) (table.forms mnemonic) given
          (given.map Operand.shape)
      | .error fault => .error (.faulted fault) := by
  rw [encode]
  split
  · next hnil =>
      obtain ⟨form, hf⟩ := isMnemonic_iff.mp hm
      have hmem := mem_forms.mpr hf
      rw [hnil] at hmem
      simp at hmem
  · rw [Classified] at hclass
    simp only [hclass, bind, Except.bind, Except.mapError]
    cases accepting? (given.map Operand.shape) (table.forms mnemonic) with
    | ok selected => cases selected <;> rfl
    | error fault => rfl

section Rows

variable {table rows : Table} {mnemonic : String} {given : List String}

/-- **The row that accepts the operands of a mnemonic is the one that is filled,** in a table of any
    rows of a fit one. -/
lemma WellFormed.encode_eq_fill (h : table.WellFormed) (hrows : rows ⊆ table)
    (hclass : Classified given) {form : Form} (hm : form ∈ rows)
    (hn : form.mnemonic = Text.uppercase mnemonic)
    (ha : form.accepts (given.map Operand.shape) = .ok true) :
    accepting? (given.map Operand.shape) (rows.forms mnemonic) = .ok (some form) ∧
      rows.encode mnemonic given = fill form given (given.map Operand.shape) := by
  have hok : ∀ f ∈ rows.forms mnemonic, ∃ taken,
      f.accepts (given.map Operand.shape) = .ok taken :=
    fun f hf => (h.forms f (hrows (mem_forms.mp hf).1)).accepts_ok _
  have hu : ∀ f ∈ rows.forms mnemonic,
      f.accepts (given.map Operand.shape) = .ok true → f = form := by
    intro f hf haf
    obtain ⟨hfm, hfn⟩ := mem_forms.mp hf
    exact h.eq_of_accepts (hrows hfm) (hrows hm) (hfn.trans hn.symm) haf ha
  have hselected := accepting?_eq_some hok hu (mem_forms.mpr ⟨hm, hn⟩) ha
  refine ⟨hselected, ?_⟩
  rw [encode_eq (isMnemonic_iff.mpr ⟨form, hm, hn⟩) hclass, hselected]

/-- **Operands that no row accepts are rejected.**  Either no row takes so many, or the operand in
    one place is to blame. -/
lemma encode_refused (h : ∀ form ∈ rows, form.WellFormed) (hclass : Classified given)
    (hm : rows.isMnemonic mnemonic = true)
    (hno : ∀ form ∈ rows.forms mnemonic, form.accepts (given.map Operand.shape) ≠ .ok true) :
    ∃ error, rows.encode mnemonic given =
        .error (.rejected (.operands (Text.uppercase mnemonic) given error)) ∧
      ((∀ form ∈ rows.forms mnemonic, form.slots.length ≠ given.length) ∧
          error.offending = none ∨
        (∃ form ∈ rows.forms mnemonic, form.slots.length = given.length) ∧
          ∃ place, BlamesPlace ((rows.forms mnemonic).filter (·.slots.length == given.length))
              (given.map Operand.shape) place ∧
            error.offending = (given.map Operand.shape)[place]?.map Operand.text) := by
  have hforms : ∀ form ∈ rows.forms mnemonic, form.WellFormed :=
    fun f hf => h f (mem_forms.mp hf).1
  rw [encode_eq hm hclass, accepting?_eq_none (fun f hf => (hforms f hf).accepts_ok _) hno]
  have hlength : (given.map Operand.shape).length = given.length := List.length_map _
  by_cases hcount : ∃ form ∈ rows.forms mnemonic, form.slots.length = given.length
  · have hne : given.map Operand.shape ≠ [] := by
      intro hnil
      obtain ⟨form, hform, hlen⟩ := hcount
      refine hno form hform (Form.accepts_iff_takesAt.mpr ⟨hlen.trans hlength.symm, ?_⟩)
      simp [hnil]
    obtain ⟨error, place, he, hplace, hoffending⟩ := mismatch_shape hforms
      (Text.uppercase mnemonic) given (by simpa using hcount) hne
    rw [hlength] at hplace
    exact ⟨error, he, .inr ⟨hcount, place, hplace, hoffending⟩⟩
  · have hnone : ∀ form ∈ rows.forms mnemonic, form.slots.length ≠ given.length :=
      fun form hform hlen => hcount ⟨form, hform, hlen⟩
    have hshapes : ∀ form ∈ rows.forms mnemonic,
        form.slots.length ≠ (given.map Operand.shape).length := by
      rwa [hlength]
    obtain ⟨error, he, hoffending⟩ :=
      mismatch_count hforms (Text.uppercase mnemonic) given hshapes
    exact ⟨error, he, .inl ⟨hnone, hoffending⟩⟩

end Rows

namespace WellFormed

variable {table : Table} {mnemonic : String} {given : List String}

/-- **A word is encoded from tokens that write it.** -/
theorem encode_of_writes (h : table.WellFormed) (hclass : Classified given)
    {form : Form} (hm : form ∈ table) (hn : form.mnemonic = Text.uppercase mnemonic)
    {values : List (Field × Nat)} {w : Word} (hw : form.Writes given values w) :
    table.encode mnemonic given = .ok w := by
  have hform := h.forms form hm
  have hsmall : ∀ q ∈ values, q.2 < 0x10000 :=
    fun q hq => Nat.lt_of_le_of_lt (hw.within q hq) q.1.limit_lt
  obtain ⟨hslots, hplaced⟩ := (spells_iff hform.slots).mpr ⟨hw.spelled, hsmall⟩
  have ha := Form.accepts_iff.mpr hslots
  obtain ⟨u, hfill, hfits, hspans⟩ := fill_eq hform given ha (hplaced ▸ hw.within)
  rw [(h.encode_eq_fill (List.Subset.refl _) hclass hm hn ha).2, hfill,
    hform.regular.eq_of_extract hfits hw.digits ?_]
  -- Both words have all fields set to the values, since every field is filled.
  refine List.map_congr_left fun p hp => ?_
  obtain ⟨q, hq, hname⟩ := hw.spelled.exists_value (hform.filled p hp)
  have hfun : ∀ a ∈ values, ∀ b ∈ values, a.1 = b.1 → a.2 = b.2 := by
    intro a ha b hb hab
    obtain ⟨r, hr, hra⟩ := hform.exists_span hw.spelled ha
    rw [← hform.regular.extractSpan_eq hr (hw.placed a ha) hra.symm,
      ← hform.regular.extractSpan_eq hr (hw.placed b hb) (hra.trans hab).symm]
  have hset := hspans p hp
  rw [hplaced, ← hname, setAll_of_mem hfun hq] at hset
  have hspan : Form.extractSpan u.value p.2 = Form.extractSpan w.value p.2 := by
    rw [hform.regular.extractSpan_eq hp (hw.placed q hq) hname]
    exact_mod_cast hset
  exact Prod.ext rfl hspan

/-- **A mnemonic either has a word, written by its operand tokens, or its operands are rejected.**
    The rows must not fill a field twice, or the first of two values would be lost. -/
theorem encode_cases (h : table.WellFormed) (once : ∀ form ∈ table, form.FillsOnce)
    (hclass : Classified given) (hm : table.isMnemonic mnemonic = true) :
    (∃ form ∈ table, ∃ values w, form.mnemonic = Text.uppercase mnemonic ∧
        form.Writes given values w ∧ table.encode mnemonic given = .ok w) ∨
      ∃ error, table.encode mnemonic given =
        .error (.rejected (.operands (Text.uppercase mnemonic) given error)) := by
  by_cases hsel : ∃ form ∈ table.forms mnemonic, form.accepts (given.map Operand.shape) = .ok true
  · obtain ⟨form, hmem, ha⟩ := hsel
    obtain ⟨hmt, hn⟩ := mem_forms.mp hmem
    have hform := h.forms form hmt
    rw [(h.encode_eq_fill (List.Subset.refl _) hclass hmt hn ha).2]
    by_cases hlimit : ∀ q ∈ placements form.slots (given.map Operand.shape), q.2 ≤ q.1.limit
    · left
      obtain ⟨w, hfill, hfits, hspans⟩ := fill_eq hform given ha hlimit
      have hspelled := ((spells_iff hform.slots).mp ⟨Form.accepts_iff.mp ha, rfl⟩).1
      refine ⟨form, hmt, _, w, hn, ⟨hspelled, hlimit, hfits, fun q hq => ?_⟩, hfill⟩
      -- The field of a value has a place in the pattern, and the word holds the value there.
      obtain ⟨p, hp, hname⟩ := hform.exists_span hspelled hq
      have hset := hspans p hp
      rw [hname, setAll_of_mem (hspelled.unique (once form hmt)) hq] at hset
      exact List.mem_map.mpr ⟨p, hp, Prod.ext hname (by exact_mod_cast hset)⟩
    · right
      obtain ⟨error, -, hrefused, -⟩ := fill_refused hform given ha hlimit
      exact ⟨error, hn ▸ hrefused⟩
  · right
    obtain ⟨error, hrefused, -⟩ :=
      encode_refused h.forms hclass hm fun form hmem ha => hsel ⟨form, hmem, ha⟩
    exact ⟨error, hrefused⟩

end WellFormed

/-! ## Lines -/

section Lines

variable {table : Table} {source first : String} {given : List String}

/-- **A line that begins with a mnemonic is an instruction.** -/
lemma lineWord_instruction (ht : tokens source = first :: given)
    (hknown : table.isMnemonic first = true) :
    table.lineWord source = (table.encode first given).map (·, false) := by
  rw [lineWord, ht]
  exact if_pos hknown

/-- **Any other line that is not blank is a raw word, or nothing.** -/
lemma lineWord_raw (ht : tokens source = first :: given) (hno : table.isMnemonic first = false) :
    table.lineWord source =
      match Word.ofHex (Text.strip source) with
      | .ok w => .ok (w, true)
      | .error _ => .error (.rejected (.unencodable (Text.strip source))) := by
  rw [lineWord, ht]
  simp only [hno, Bool.false_eq_true, if_false, encodeRaw]
  cases Word.ofHex (Text.strip source) with
  | ok w => rfl
  | error fault => rfl

end Lines

end Table

end Chip8
