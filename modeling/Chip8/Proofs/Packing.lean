import Chip8.Form
import Chip8.Proofs.Patterns

/-!
# Packing and unpacking are inverse

A form packs its fields by disjunction, without clearing anything, and unpacks them by shifting.
On a *regular* form, whose pattern has four characters and names no field twice, packing is still
the obvious thing: the word is the pattern with its fields filled in.

* `Form.packInto_eq` is the loop: what has been packed so far lies above the bits that are still
  to come, so the disjunction is an addition.
* `Form.encode_eq_ok_iff` characterises packing by unpacking: of all words, values in range are
  packed into the one that has the fixed digits of the pattern and those values in its fields.
* `Form.repack` packs what was unpacked.  It gives a word with the same fields and the digits of
  the pattern (`repack_spec`), and the same word exactly if it had them (`repack_eq_self_iff`).
-/

namespace Chip8

open Pattern

namespace Form

/-- **A regular form:** four characters in its pattern, and no field named twice. -/
structure Regular (form : Form) : Prop where
  /-- The pattern has a character for each nibble of a word. -/
  length : form.pattern.toList.length = 4
  /-- Every field has one place. -/
  distinct : HasDistinctFields form.pattern

/-- The runs of the pattern. -/
def digits (form : Form) : List (Char × Nat) := runs form.pattern.toList

/-! ## The packing loop -/

/-- The bound that a value is compared with when it is packed. -/
lemma cast_one_shiftLeft (width : Nat) : ((1 <<< width : Nat) : Int) = 2 ^ width := by
  rw [Nat.one_shiftLeft]
  push_cast
  rfl

lemma toNat_lt_two_pow {v : Int} {width : Nat} (hpos : 0 ≤ v) (hlt : v < 2 ^ width) :
    v.toNat < 2 ^ width := by
  have hcast : (v.toNat : Int) < ((2 ^ width : Nat) : Int) := by
    rw [Int.toNat_of_nonneg hpos]; exact_mod_cast hlt
  exact_mod_cast hcast

/-- The upper bits of a number receive a disjunct that was shifted above the lower ones. -/
lemma or_shiftLeft {k m r v : Nat} (hr : r < 2 ^ k) (hv : v < 2 ^ m) (a : Nat) :
    (2 ^ k * (2 ^ m * a) + r) ||| v <<< k = 2 ^ k * (2 ^ m * a + v) + r := by
  rw [eq_iff_div_mod k, Nat.or_div_two_pow, Nat.or_mod_two_pow, Nat.shiftLeft_eq, Nat.mul_comm v]
  simp only [Nat.mul_add_div (Nat.two_pow_pos k), Nat.mul_add_mod, Nat.mul_mod_right,
    Nat.mul_div_cancel_left _ (Nat.two_pow_pos k), Nat.div_eq_of_lt hr, Nat.mod_eq_of_lt hr,
    Nat.add_zero, Nat.or_zero]
  exact ⟨(Nat.two_pow_add_eq_or_of_lt hv a).symm, trivial⟩

/-- **Packing fills the pattern.**  The upper bits `a` are what the runs before have come to. -/
lemma packInto_eq {values : Field → Int} {rs : List (Char × Nat)}
    (h : ∀ p ∈ fieldSpans rs, 0 ≤ values p.1 ∧ values p.1 < 2 ^ p.2.width) (a : Nat) :
    packInto values (fieldSpans rs) (2 ^ (4 * runsLength rs) * a + total valueBlock rs) =
      .ok (2 ^ (4 * runsLength rs) * a + filled (fun f => (values f).toNat) rs) := by
  induction rs generalizing a with
  | nil => rfl
  | cons q rest ih =>
      obtain ⟨c, len⟩ := q
      have hpow : 2 ^ (4 * (len + runsLength rest)) =
          2 ^ (4 * runsLength rest) * 2 ^ (4 * len) := by
        rw [← Nat.pow_add]; congr 1; omega
      have hvalue : total valueBlock rest < 2 ^ (4 * runsLength rest) :=
        total_lt fun p _ => valueBlock_lt p.1 p.2
      have hsplit : ∀ b t : Nat, 2 ^ (4 * runsLength ((c, len) :: rest)) * a +
          (2 ^ (4 * runsLength rest) * b + t) =
          2 ^ (4 * runsLength rest) * (2 ^ (4 * len) * a + b) + t := by
        intro b t
        rw [runsLength_cons, hpow]
        ring
      -- A run of fixed digits has no span; the span of a field lies over zeros of the value.
      by_cases hc : isFixed c = true
      · have hspans : fieldSpans ((c, len) :: rest) = fieldSpans rest := by simp [fieldSpans, hc]
        rw [hspans, total_cons, hsplit, ih (hspans ▸ h), filled_cons, hsplit, filledBlock,
          if_pos hc]
      · have hc' : isFixed c = false := by simpa using hc
        have hspans : fieldSpans ((c, len) :: rest) =
            (fieldOf c len, ⟨4 * runsLength rest, 4 * len⟩) :: fieldSpans rest := by
          simp [fieldSpans, hc']
        rw [hspans, List.forall_mem_cons] at h
        obtain ⟨⟨hpos, hlt⟩, hrest⟩ := h
        have hnat : (values (fieldOf c len)).toNat < 2 ^ (4 * len) := toNat_lt_two_pow hpos hlt
        rw [hspans, packInto]
        simp only [cast_one_shiftLeft]
        rw [if_pos ⟨hpos, hlt⟩, total_cons, hsplit, valueBlock_field hc', Nat.add_zero,
          or_shiftLeft hvalue hnat, ih hrest, filled_cons, hsplit, filledBlock, if_neg hc]

lemma extractSpan_natCast (u : Nat) (span : Span) :
    extractSpan u span = u / 2 ^ span.shift % 2 ^ span.width := by
  rw [extractSpan, Int.shiftRight_eq_div_pow, Nat.one_shiftLeft]
  norm_cast

/-- A natural number is compared with the fixed digits as a natural number. -/
lemma fits_natCast_iff {form : Form} {value mask : Nat} (hvalue : form.value = .ok value)
    (hmask : form.mask = .ok mask) (u : Nat) : form.fits u = .ok true ↔ u &&& mask = value := by
  simp only [fits, hvalue, hmask, bind, Except.bind, pure, Except.pure, Bits.and_natCast,
    Except.ok.injEq, beq_iff_eq]
  exact Int.ofNat_inj

/-! ## Regular forms -/

section Regular

variable {form : Form} (h : form.Regular)
include h

lemma Regular.layout_eq : form.layout = fieldSpans form.digits := Pattern.layout_eq h.distinct

lemma Regular.runsLength_digits : runsLength form.digits = 4 := by
  rw [digits, runsLength_runs, h.length]

lemma Regular.value_eq : form.value = .ok (total valueBlock form.digits) :=
  Pattern.value_eq h.length

lemma Regular.mask_eq : form.mask = .ok (total maskBlock form.digits) :=
  Pattern.mask_eq h.length

lemma Regular.fits_iff (u : Nat) :
    form.fits u = .ok true ↔ u &&& total maskBlock form.digits = total valueBlock form.digits :=
  fits_natCast_iff h.value_eq h.mask_eq u

/-- Packing values in range. -/
lemma Regular.encode_eq {values : Field → Int}
    (hv : ∀ p ∈ form.layout, 0 ≤ values p.1 ∧ values p.1 < 2 ^ p.2.width) :
    ∃ hlt : filled (fun f => (values f).toNat) form.digits < 0x10000,
      form.encode values = .ok ⟨filled (fun f => (values f).toNat) form.digits, hlt⟩ := by
  rw [h.layout_eq] at hv
  have hfit : Fitting (fun f => (values f).toNat) (fieldSpans form.digits) :=
    fun p hp => toNat_lt_two_pow (hv p hp).1 (hv p hp).2
  have hlt : filled (fun f => (values f).toNat) form.digits < 0x10000 := by
    simpa [h.runsLength_digits] using filled_lt hfit
  have hpack := packInto_eq hv 0
  rw [Nat.mul_zero, Nat.zero_add, Nat.zero_add] at hpack
  refine ⟨hlt, ?_⟩
  simp only [encode, h.value_eq, h.layout_eq, bind, Except.bind, hpack]
  exact Word.ofInt_value ⟨_, hlt⟩

/-- **Of all words, values in range are packed into the one that has the fixed digits of the
    pattern and those values in its fields.** -/
theorem Regular.encode_eq_ok_iff {values : Field → Int}
    (hv : ∀ p ∈ form.layout, 0 ≤ values p.1 ∧ values p.1 < 2 ^ p.2.width) (w : Word) :
    form.encode values = .ok w ↔
      form.fits w.value = .ok true ∧
        ∀ p ∈ form.layout, (extractSpan w.value p.2 : Int) = values p.1 := by
  obtain ⟨hlt, henc⟩ := h.encode_eq hv
  rw [henc, h.fits_iff, h.layout_eq]
  rw [h.layout_eq] at hv
  have hfit : Fitting (fun f => (values f).toNat) (fieldSpans form.digits) :=
    fun p hp => toNat_lt_two_pow (hv p hp).1 (hv p hp).2
  have hw : w.value < 2 ^ (4 * runsLength form.digits) := by
    rw [h.runsLength_digits]; exact w.value_lt
  have hspans : (∀ p ∈ fieldSpans form.digits,
      w.value / 2 ^ p.2.shift % 2 ^ p.2.width = (values p.1).toNat) ↔
      ∀ p ∈ fieldSpans form.digits, (extractSpan w.value p.2 : Int) = values p.1 := by
    refine forall₂_congr fun p hp => ?_
    have hpos := (hv p hp).1
    rw [extractSpan_natCast]
    omega
  rw [← hspans, ← eq_filled_iff hfit hw]
  obtain ⟨u, hu⟩ := w
  simp only [Except.ok.injEq, Word.mk.injEq]
  exact eq_comm

end Regular

/-! ## Unpacking and packing again -/

/-- The value that a word has in a field, zero if the form has no such field. -/
def fieldValue (form : Form) (w : Word) (field : Field) : Nat :=
  ((form.extract w.value).lookup field).getD 0

/-- The values that a word has in all fields. -/
def fieldValues (form : Form) (w : Word) : Field → Int := fun field => form.fieldValue w field

/-- **The word of the field values of a word.** -/
def repack (form : Form) (w : Word) : Except Fault Word := form.encode (form.fieldValues w)

lemma extractSpan_lt (code : Int) (span : Span) : extractSpan code span < 2 ^ span.width := by
  have hpos : (0 : Int) < 2 ^ span.width := Int.pow_pos (by decide)
  have hlt := Int.emod_lt_of_pos (code >>> span.shift) hpos
  have hnonneg := Int.emod_nonneg (code >>> span.shift) hpos.ne'
  rw [extractSpan, cast_one_shiftLeft]
  exact toNat_lt_two_pow hnonneg hlt

lemma lookup_of_mem {β : Type} {values : List (Field × β)} (hd : (values.map Prod.fst).Nodup)
    {field : Field} {value : β} (hm : (field, value) ∈ values) :
    values.lookup field = some value := by
  induction values with
  | nil => simp at hm
  | cons p values ih =>
      obtain ⟨other, v⟩ := p
      simp only [List.map_cons, List.nodup_cons] at hd
      rcases List.mem_cons.mp hm with heq | htail
      · cases heq
        exact List.lookup_cons_self
      · have hne : field ≠ other := by
          rintro rfl
          exact hd.1 (List.mem_map_of_mem (f := Prod.fst) htail)
        rw [List.lookup_cons, beq_eq_false_iff_ne.mpr hne]
        exact ih hd.2 htail

section Regular

variable {form : Form} (h : form.Regular)
include h

lemma Regular.nodup_extract (code : Int) : ((form.extract code).map Prod.fst).Nodup := by
  have hfst : (form.extract code).map Prod.fst = form.layout.map Prod.fst := by
    simp [extract, Function.comp_def]
  rw [hfst, h.layout_eq]
  exact h.distinct

lemma Regular.lookup_extract (code : Int) {p : Field × Span} (hp : p ∈ form.layout) :
    (form.extract code).lookup p.1 = some (extractSpan code p.2) :=
  lookup_of_mem (h.nodup_extract code) (List.mem_map_of_mem hp)

lemma Regular.extractSpan_eq {code : Int} {p : Field × Span} {q : Field × Nat}
    (hp : p ∈ form.layout) (hq : q ∈ form.extract code) (hname : q.1 = p.1) :
    extractSpan code p.2 = q.2 := by
  have hlookup := lookup_of_mem (h.nodup_extract code) hq
  rw [hname, h.lookup_extract code hp] at hlookup
  exact Option.some.inj hlookup

lemma Regular.fieldValue_eq (w : Word) {p : Field × Span} (hp : p ∈ form.layout) :
    form.fieldValue w p.1 = extractSpan w.value p.2 := by
  rw [fieldValue, h.lookup_extract w.value hp, Option.getD_some]

lemma Regular.fieldValues_range (w : Word) :
    ∀ p ∈ form.layout, 0 ≤ form.fieldValues w p.1 ∧ form.fieldValues w p.1 < 2 ^ p.2.width := by
  intro p hp
  rw [fieldValues, h.fieldValue_eq w hp]
  exact ⟨Int.natCast_nonneg _, by exact_mod_cast extractSpan_lt w.value p.2⟩

/-- **Packing again gives a word with the same fields and the digits of the pattern.** -/
theorem Regular.repack_spec (w : Word) :
    ∃ u, form.repack w = .ok u ∧ form.fits u.value = .ok true ∧
      form.extract u.value = form.extract w.value := by
  obtain ⟨hlt, henc⟩ := h.encode_eq (h.fieldValues_range w)
  obtain ⟨hfits, hspans⟩ := (h.encode_eq_ok_iff (h.fieldValues_range w) _).mp henc
  refine ⟨_, henc, hfits, ?_⟩
  refine List.map_congr_left fun p hp => ?_
  have hspan := hspans p hp
  rw [fieldValues, h.fieldValue_eq w hp] at hspan
  exact Prod.ext rfl (by exact_mod_cast hspan)

/-- **Packing again gives back the words that have the digits of the pattern, and only these.** -/
theorem Regular.repack_eq_self_iff (w : Word) :
    form.repack w = .ok w ↔ form.fits w.value = .ok true := by
  rw [repack, h.encode_eq_ok_iff (h.fieldValues_range w)]
  refine and_iff_left fun p hp => ?_
  rw [fieldValues, h.fieldValue_eq w hp]

lemma Regular.eq_of_extract {u w : Word} (hu : form.fits u.value = .ok true)
    (hw : form.fits w.value = .ok true) (heq : form.extract u.value = form.extract w.value) :
    u = w := by
  have hvalues : form.fieldValues u = form.fieldValues w := by
    funext field
    rw [fieldValues, fieldValues, fieldValue, fieldValue, heq]
  have hrepack : form.repack u = form.repack w := by rw [repack, repack, hvalues]
  rw [(h.repack_eq_self_iff u).mpr hu, (h.repack_eq_self_iff w).mpr hw] at hrepack
  exact Except.ok.inj hrepack

end Regular

end Form

end Chip8
