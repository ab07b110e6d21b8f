import Chip8.Proofs.Packing
import Mathlib.Data.Set.Function

/-!
# Field values and the words that fit a form

A regular form is a bijection between the values that its fields can hold and the words that have
the digits of its pattern (`Form.Regular.packing_exact`).  Values out of range are refused, and the
field that is named is the leftmost one of the pattern whose value does not fit.  A fault names the
field of any value; its message does if the value has at most 4300 digits, for longer ones are not
printed.

* `Span.Holds` says whether a value fits a place.
* `Form.exists_packInto_eq_error` is the loop on values that do not fit: it stops at the first.  The
  fields are packed from left to right (`Pattern.pairwise_fieldSpans`).
* `Form.Assigns` are the values of all fields, in the order of the fields, each within its place.
-/

namespace Chip8

/-- **Whether a place holds a value:** it is not negative and has no more bits than the place. -/
def Span.Holds (span : Span) (value : Int) : Prop := 0 ≤ value ∧ value < 2 ^ span.width

instance (span : Span) (value : Int) : Decidable (span.Holds value) :=
  inferInstanceAs (Decidable (_ ∧ _))

namespace Form

/-! ## Maps of values -/

/-- **The value that a map has for a field,** zero if it has none. -/
def valueIn (given : List (Field × Int)) : Field → Int := fun field => (given.lookup field).getD 0

/-- **What is unpacked from a word,** as a map of integers. -/
def unpacked (form : Form) (w : Word) : List (Field × Int) :=
  (form.extract w.value).map fun q => (q.1, (q.2 : Int))

lemma valueIn_unpacked (form : Form) (w : Word) :
    valueIn (form.unpacked w) = form.fieldValues w := by
  have hlookup : ∀ (values : List (Field × Nat)) (field : Field),
      (values.map fun q => (q.1, (q.2 : Int))).lookup field =
        (values.lookup field).map Int.ofNat := by
    intro values field
    induction values with
    | nil => rfl
    | cons q values ih =>
        rw [List.map_cons, List.lookup_cons, List.lookup_cons, ih]
        cases field == q.1 <;> rfl
  funext field
  rw [valueIn, unpacked, hlookup, fieldValues, fieldValue]
  cases (form.extract w.value).lookup field <;> rfl

lemma Regular.encode_unpacked {form : Form} (h : form.Regular) {w : Word}
    (hfits : form.fits w.value = .ok true) : form.encode (valueIn (form.unpacked w)) = .ok w := by
  rw [valueIn_unpacked]
  exact (h.repack_eq_self_iff w).mpr hfits

/-! ## Values out of range -/

lemma message_fieldRange {field : Field} {value : Int} (h : Numeral.isPrintable value = true) :
    (Fault.fieldRange field value).message =
      field.name ++ " out of range: " ++ Numeral.ofInt value :=
  if_pos h

/-- **Packing stops at the first value that does not fit.** -/
lemma exists_packInto_eq_error {values : Field → Int} {layout : Layout}
    (h : ∃ p ∈ layout, ¬ p.2.Holds (values p.1)) (bits : Nat) :
    ∃ before p after, layout = before ++ p :: after ∧ (∀ q ∈ before, q.2.Holds (values q.1)) ∧
      ¬ p.2.Holds (values p.1) ∧
      packInto values layout bits = .error (.fieldRange p.1 (values p.1)) := by
  induction layout generalizing bits with
  | nil => simp at h
  | cons p rest ih =>
      obtain ⟨field, span⟩ := p
      rw [packInto]
      simp only [cast_one_shiftLeft]
      by_cases hp : span.Holds (values field)
      · have hrest : ∃ p ∈ rest, ¬ p.2.Holds (values p.1) := by simpa [hp] using h
        obtain ⟨before, q, after, rfl, hbefore, hq, hpack⟩ :=
          ih hrest (bits ||| (values field).toNat <<< span.shift)
        refine ⟨(field, span) :: before, q, after, rfl, ?_, hq, ?_⟩
        · exact List.forall_mem_cons.mpr ⟨hp, hbefore⟩
        · exact (if_pos hp).trans hpack
      · exact ⟨[], (field, span), rest, rfl, List.forall_mem_nil _, hp, if_neg hp⟩

section Regular

variable {form : Form} (h : form.Regular)
include h

/-- **The leftmost field that does not hold its value is named.** -/
lemma Regular.exists_encode_eq_error {values : Field → Int}
    (hout : ∃ p ∈ form.layout, ¬ p.2.Holds (values p.1)) :
    ∃ p ∈ form.layout, ¬ p.2.Holds (values p.1) ∧
      (∀ q ∈ form.layout, p.2.shift < q.2.shift → q.2.Holds (values q.1)) ∧
      form.encode values = .error (.fieldRange p.1 (values p.1)) := by
  obtain ⟨before, p, after, hlayout, hbefore, hp, hpack⟩ :=
    exists_packInto_eq_error hout (Pattern.total Pattern.valueBlock form.digits)
  have horder : form.layout.Pairwise fun p q => q.2.shift + q.2.width ≤ p.2.shift :=
    h.layout_eq ▸ Pattern.pairwise_fieldSpans form.digits
  rw [hlayout, List.pairwise_append, List.pairwise_cons] at horder
  refine ⟨p, by simp [hlayout], hp, fun q hq hleft => ?_, ?_⟩
  · rw [hlayout, List.mem_append, List.mem_cons] at hq
    rcases hq with hq | rfl | hq
    · exact hbefore q hq
    · exact absurd hleft (lt_irrefl _)
    · have := horder.2.1.1 q hq
      omega
  · simp only [encode, h.value_eq, bind, Except.bind, hpack]

/-- **Values are refused exactly if one of them does not fit.** -/
lemma Regular.encode_eq_error_iff {values : Field → Int} :
    (∃ fault, form.encode values = .error fault) ↔
      ∃ p ∈ form.layout, ¬ p.2.Holds (values p.1) := by
  constructor
  · rintro ⟨fault, hfault⟩
    by_contra hin
    push Not at hin
    obtain ⟨_, henc⟩ := h.encode_eq hin
    rw [hfault] at henc
    cases henc
  · intro hout
    obtain ⟨p, -, -, -, henc⟩ := h.exists_encode_eq_error hout
    exact ⟨_, henc⟩

/-- **What is packed fits the form, and its fields hold the values.** -/
lemma Regular.unpacked_of_encode {values : Field → Int} {w : Word}
    (henc : form.encode values = .ok w) :
    form.fits w.value = .ok true ∧
      form.unpacked w = form.layout.map fun p => (p.1, values p.1) := by
  have hin : ∀ p ∈ form.layout, p.2.Holds (values p.1) := by
    by_contra hout
    push Not at hout
    obtain ⟨fault, hfault⟩ := h.encode_eq_error_iff.mpr hout
    rw [henc] at hfault
    cases hfault
  obtain ⟨hfits, hspans⟩ := (h.encode_eq_ok_iff hin w).mp henc
  refine ⟨hfits, ?_⟩
  rw [unpacked, extract, List.map_map]
  exact List.map_congr_left fun p hp => Prod.ext rfl (hspans p hp)

end Regular

/-! ## Values for all fields -/

/-- **A value for each field of a form,** in the order of the fields, that the field can hold. -/
def Assigns (form : Form) (given : List (Field × Int)) : Prop :=
  List.Forall₂ (fun q p => q.1 = p.1 ∧ p.2.Holds q.2) given form.layout

section Assigns

variable {form : Form} {given : List (Field × Int)}

lemma unpacked_assigns (form : Form) (w : Word) : form.Assigns (form.unpacked w) := by
  rw [Assigns, unpacked, extract, List.map_map, List.forall₂_map_left_iff, List.forall₂_same]
  intro p _
  have hlt : (extractSpan w.value p.2 : Int) < 2 ^ p.2.width := by
    exact_mod_cast extractSpan_lt w.value p.2
  exact ⟨rfl, Int.natCast_nonneg _, hlt⟩

lemma Assigns.names_eq (ha : form.Assigns given) :
    given.map Prod.fst = form.layout.map Prod.fst := by
  rw [Assigns] at ha
  generalize form.layout = layout at ha
  induction ha with
  | nil => rfl
  | cons hentry _ ih => rw [List.map_cons, List.map_cons, hentry.1, ih]

lemma Assigns.exists_value (ha : form.Assigns given) :
    ∀ p ∈ form.layout, ∃ v, (p.1, v) ∈ given ∧ p.2.Holds v := by
  rw [Assigns] at ha
  generalize form.layout = layout at ha
  induction ha with
  | nil => exact List.forall_mem_nil _
  | cons hentry _ ih =>
      obtain ⟨hname, hholds⟩ := hentry
      refine List.forall_mem_cons.mpr ⟨⟨_, hname ▸ List.mem_cons_self, hholds⟩, fun p hp => ?_⟩
      obtain ⟨v, hv, hholds⟩ := ih p hp
      exact ⟨v, List.mem_cons_of_mem _ hv, hholds⟩

end Assigns

section Regular

variable {form : Form} (h : form.Regular) {given : List (Field × Int)}
include h

lemma Regular.valueIn_eq (ha : form.Assigns given) {q : Field × Int} (hq : q ∈ given) :
    valueIn given q.1 = q.2 := by
  have hnodup : (given.map Prod.fst).Nodup := by
    rw [ha.names_eq, h.layout_eq]
    exact h.distinct
  rw [valueIn, lookup_of_mem hnodup hq, Option.getD_some]

/-- Values for all fields are known from what they are for the single fields. -/
lemma Regular.map_valueIn (ha : form.Assigns given) :
    (form.layout.map fun p => (p.1, valueIn given p.1)) = given := by
  calc (form.layout.map fun p => (p.1, valueIn given p.1))
      = (given.map Prod.fst).map fun field => (field, valueIn given field) := by
        rw [ha.names_eq, List.map_map]
        rfl
    _ = given.map id := by
        rw [List.map_map]
        exact List.map_congr_left fun q hq => Prod.ext rfl (h.valueIn_eq ha hq)
    _ = given := List.map_id given

/-- **Values that the fields can hold are packed.** -/
lemma Regular.exists_encode_eq_ok (ha : form.Assigns given) :
    ∃ w, form.encode (valueIn given) = .ok w := by
  have hin : ∀ p ∈ form.layout, p.2.Holds (valueIn given p.1) := by
    intro p hp
    obtain ⟨v, hv, hholds⟩ := ha.exists_value p hp
    rwa [h.valueIn_eq ha hv]
  obtain ⟨_, henc⟩ := h.encode_eq hin
  exact ⟨_, henc⟩

/-- **Packing is one to one, and it reaches every word that fits.** -/
lemma Regular.bijOn_encode :
    Set.BijOn (fun given => form.encode (valueIn given)) {given | form.Assigns given}
      {result | ∃ w, result = .ok w ∧ form.fits w.value = .ok true} := by
  refine ⟨fun given ha => ?_, fun first hfirst second hsecond heq => ?_, ?_⟩
  · obtain ⟨w, henc⟩ := h.exists_encode_eq_ok ha
    exact ⟨w, henc, (h.unpacked_of_encode henc).1⟩
  · -- Both are what is unpacked from the one word.
    obtain ⟨w, henc⟩ := h.exists_encode_eq_ok hfirst
    have hback : ∀ given, form.Assigns given → form.encode (valueIn given) = .ok w →
        form.unpacked w = given := by
      intro given ha henc
      rw [(h.unpacked_of_encode henc).2, h.map_valueIn ha]
    have henc' : form.encode (valueIn second) = .ok w := heq.symm.trans henc
    rw [← hback first hfirst henc, hback second hsecond henc']
  · rintro _ ⟨w, rfl, hfits⟩
    exact ⟨form.unpacked w, form.unpacked_assigns w, h.encode_unpacked hfits⟩

/-- **Packing and unpacking are inverse on every regular form.**  Values are refused exactly if one
    of the fields cannot hold its value, zero where none is given, and the leftmost of these fields
    is named.  Other values give a word that fits the form, from which they are unpacked again, and
    a word that fits is what its unpacked values are packed to.

    The message of a refusal has the name of the field and the value, with one exception: a value
    of more than 4300 digits is refused like any other, but it cannot be printed, so that the
    message is about its length and names no field. -/
theorem Regular.packing_exact :
    (∀ given : List (Field × Int),
      ((∃ fault, form.encode (valueIn given) = .error fault) ↔
        ∃ p ∈ form.layout, ¬ p.2.Holds (valueIn given p.1)) ∧
      (∀ fault, form.encode (valueIn given) = .error fault →
        ∃ p ∈ form.layout, ¬ p.2.Holds (valueIn given p.1) ∧
          (∀ q ∈ form.layout, p.2.shift < q.2.shift → q.2.Holds (valueIn given q.1)) ∧
          fault = .fieldRange p.1 (valueIn given p.1) ∧
          (Numeral.isPrintable (valueIn given p.1) = true →
            fault.message =
              p.1.name ++ " out of range: " ++ Numeral.ofInt (valueIn given p.1))) ∧
      ∀ w, form.encode (valueIn given) = .ok w → form.fits w.value = .ok true ∧
        form.unpacked w = form.layout.map fun p => (p.1, valueIn given p.1)) ∧
    (∀ w, form.fits w.value = .ok true → form.encode (valueIn (form.unpacked w)) = .ok w) ∧
    Set.BijOn (fun given => form.encode (valueIn given)) {given | form.Assigns given}
      {result | ∃ w, result = .ok w ∧ form.fits w.value = .ok true} := by
  refine ⟨fun given => ⟨h.encode_eq_error_iff, fun fault hfault => ?_, fun w henc => ?_⟩,
    fun w hfits => h.encode_unpacked hfits, h.bijOn_encode⟩
  · obtain ⟨p, hp, hout, hleft, henc⟩ :=
      h.exists_encode_eq_error (h.encode_eq_error_iff.mp ⟨fault, hfault⟩)
    rw [hfault, Except.error.injEq] at henc
    exact ⟨p, hp, hout, hleft, henc, fun hprint => henc ▸ message_fieldRange hprint⟩
  · exact h.unpacked_of_encode henc

end Regular

/-- A nibble, a fixed digit and a byte: of two values out of range that of the nibble is named,
    wherever it stands in the map, and values in range come back. -/
theorem packing_exact_nibble :
    ∃ form : Form, form.pattern = "pFkk" ∧ form.Regular ∧
      form.encode (valueIn [(.kk, 0x1FF), (.n, 16)]) = .error (.fieldRange .n 16) ∧
      (∃ p ∈ form.layout, ¬ p.2.Holds (valueIn [(.kk, 0x1FF), (.n, 16)] p.1)) ∧
      form.encode (valueIn [(.kk, 0xA7), (.n, 3)]) = .ok ⟨0x3FA7, by decide⟩ ∧
      form.unpacked ⟨0x3FA7, by decide⟩ = [(.n, 3), (.kk, 0xA7)] ∧
      form.encode (valueIn (form.unpacked ⟨0x3FA7, by decide⟩)) = .ok ⟨0x3FA7, by decide⟩ := by
  set form : Form := { mnemonic := "WORD", slots := [], pattern := "pFkk" }
  have h : form.Regular := ⟨by decide, by decide⟩
  have hlow : form.encode (valueIn [(.kk, 0x1FF), (.n, 16)]) = .error (.fieldRange .n 16) := by
    decide +kernel
  have hword : form.encode (valueIn [(.kk, 0xA7), (.n, 3)]) = .ok ⟨0x3FA7, by decide⟩ := by
    decide +kernel
  have hlayout : form.layout = [(.n, ⟨12, 4⟩), (.kk, ⟨0, 8⟩)] := by
    decide +kernel
  obtain ⟨hvalues, hwords, -⟩ := h.packing_exact
  obtain ⟨hfits, hback⟩ := (hvalues [(.kk, 0xA7), (.n, 3)]).2.2 _ hword
  rw [hlayout] at hback
  exact ⟨form, rfl, h, hlow, (hvalues _).1.mp ⟨_, hlow⟩, hword, hback, hwords _ hfits⟩

end Form

end Chip8
