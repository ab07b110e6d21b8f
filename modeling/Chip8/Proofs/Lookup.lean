import Chip8.Decoding
import Chip8.Proofs.WellFormed

/-!
# The table turned around

The decoder sorts its rules into families and, in a family, by weight.  Neither loses a rule, so
the form that is found for a code is one of the printed forms that read it (`lookup_some`), and
where a single rule reads a code the order does not matter (`lookup_of_unique`).

`DecodingRule.ofTable_spec` says which rules a fit table has: one for each printed form.
-/

namespace Chip8

namespace DecodingRule

/-! ## Ranking -/

lemma mem_insert {rule other : DecodingRule} {rules : List DecodingRule} :
    other ∈ insert rule rules ↔ other = rule ∨ other ∈ rules := by
  induction rules with
  | nil => simp [insert]
  | cons first rest ih =>
      rw [insert]
      split_ifs
      · simp
      · rw [List.mem_cons, ih, List.mem_cons]
        exact or_left_comm

/-- Ranking neither loses nor adds a rule. -/
lemma mem_rank {rule : DecodingRule} {rules : List DecodingRule} :
    rule ∈ rank rules ↔ rule ∈ rules := by
  induction rules with
  | nil => simp [rank]
  | cons first rest ih =>
      rw [rank] at ih ⊢
      rw [List.foldr_cons, mem_insert, ih, List.mem_cons]

/-! ## The rules of a table -/

/-- **The rule of a printed form:** its value and the bits it is told by. -/
def IsRuleOf (rule : DecodingRule) (form : Form) : Prop :=
  rule.form = form ∧ form.value = .ok rule.value ∧ form.matchMask = .ok rule.mask

lemma IsRuleOf.unique {rule other : DecodingRule} {form : Form} (h : rule.IsRuleOf form)
    (h' : other.IsRuleOf form) : rule = other := by
  obtain ⟨m, v, f⟩ := rule
  obtain ⟨m', v', f'⟩ := other
  obtain ⟨rfl, hv, hm⟩ := h
  obtain ⟨rfl, hv', hm'⟩ := h'
  rw [hv, Except.ok.injEq] at hv'
  rw [hm, Except.ok.injEq] at hm'
  simp only at hv' hm'
  rw [hv', hm']

/-- A rule reads what is read as its form. -/
lemma IsRuleOf.matchesCode_eq {rule : DecodingRule} {form : Form} (h : rule.IsRuleOf form)
    (code : Int) : form.matchesCode code = .ok (rule.reads code) := by
  obtain ⟨-, hvalue, hmask⟩ := h
  simp only [Form.matchesCode, hvalue, hmask, bind, Except.bind, pure, Except.pure, reads]

lemma IsRuleOf.reads_iff {rule : DecodingRule} {form : Form} (h : rule.IsRuleOf form) (code : Int) :
    rule.reads code = true ↔ form.matchesCode code = .ok true := by
  rw [h.matchesCode_eq, Except.ok.injEq]

lemma exists_isRuleOf {form : Form} (h : form.WellFormed) :
    ∃ rule : DecodingRule, rule.IsRuleOf form := by
  obtain ⟨mask, hmask⟩ : ∃ mask, form.matchMask = .ok mask := by
    rw [Form.matchMask]
    split
    · exact ⟨_, rfl⟩
    · rw [h.regular.mask_eq]; exact ⟨_, rfl⟩
  exact ⟨⟨mask, _, form⟩, rfl, h.regular.value_eq, hmask⟩

/-- **The rules of a table are those of its printed forms,** in table order, if each of these has
    one. -/
lemma ofTable_ordered {table : Table}
    (h : ∀ form ∈ table, form.canonical = true → ∃ rule : DecodingRule, rule.IsRuleOf form) :
    ∃ rules, ofTable table = .ok rules ∧ rules.map (·.form) = table.filter (·.canonical) ∧
      ∀ rule ∈ rules, rule.IsRuleOf rule.form := by
  induction table with
  | nil => exact ⟨[], rfl, rfl, by simp⟩
  | cons form rest ih =>
      obtain ⟨rules, hrules, hforms, hspec⟩ := ih fun f hf => h f (List.mem_cons_of_mem _ hf)
      rw [ofTable]
      split_ifs with hc
      · obtain ⟨first, rfl, hvalue, hmask⟩ := h form List.mem_cons_self hc
        refine ⟨first :: rules, ?_, ?_, ?_⟩
        · rw [hvalue, hmask, hrules]
          rfl
        · rw [List.map_cons, hforms, List.filter_cons_of_pos hc]
        · exact List.forall_mem_cons.mpr ⟨⟨rfl, hvalue, hmask⟩, hspec⟩
      · refine ⟨rules, hrules, ?_, hspec⟩
        rw [hforms, List.filter_cons_of_neg hc]

/-- **A fit table has one rule for each printed form.** -/
theorem ofTable_spec {table : Table} (h : ∀ form ∈ table, form.WellFormed) :
    ∃ rules, ofTable table = .ok rules ∧ ∀ rule, rule ∈ rules ↔
      ∃ form ∈ table, form.canonical = true ∧ rule.IsRuleOf form := by
  obtain ⟨rules, hrules, hforms, hspec⟩ :=
    ofTable_ordered fun form hf _ => exists_isRuleOf (h form hf)
  refine ⟨rules, hrules, fun rule => ⟨fun hrule => ?_, ?_⟩⟩
  · have hmem : rule.form ∈ table.filter (·.canonical) :=
      hforms ▸ List.mem_map_of_mem (f := (·.form)) hrule
    obtain ⟨hm, hc⟩ := List.mem_filter.mp hmem
    exact ⟨rule.form, hm, hc, hspec rule hrule⟩
  · rintro ⟨form, hm, hc, hrule⟩
    have hmem : form ∈ rules.map (·.form) := hforms ▸ List.mem_filter.mpr ⟨hm, hc⟩
    obtain ⟨other, hother, rfl⟩ := List.mem_map.mp hmem
    rwa [hrule.unique (hspec other hother)]

end DecodingRule

namespace Decoder

/-! ## Lookup -/

/-- **The rules that may read a word are those of its family,** ranked. -/
lemma candidates_eq (rules : List DecodingRule) (w : Word) :
    (ofRules rules).candidates w.value =
      DecodingRule.rank (rules.filter (·.family == w.value / 4096)) := by
  have hw : w.value / 4096 < 16 := by have := w.value_lt; omega
  have hnat : ((w.value : Int) / 4096).toNat = w.value / 4096 := by omega
  have hpos : ¬ (w.value : Int) < 0 := by omega
  rw [candidates, if_neg hpos, hnat, ofRules, List.getElem?_map, List.getElem?_range hw]
  rfl

lemma mem_candidates {rules : List DecodingRule} {w : Word} {rule : DecodingRule} :
    rule ∈ (ofRules rules).candidates w.value ↔ rule ∈ rules ∧ rule.family = w.value / 4096 := by
  rw [candidates_eq, DecodingRule.mem_rank, List.mem_filter, beq_iff_eq]

/-- **The form that is found is that of a rule of the right family which reads the word.** -/
lemma lookup_some {rules : List DecodingRule} {w : Word} {form : Form}
    (h : (ofRules rules).lookup w.value = some form) :
    ∃ rule ∈ rules, rule.form = form ∧ rule.family = w.value / 4096 ∧
      rule.reads w.value = true := by
  obtain ⟨rule, hfind, hform⟩ := Option.map_eq_some_iff.mp h
  obtain ⟨hm, hfamily⟩ := mem_candidates.mp (List.mem_of_find?_eq_some hfind)
  have hreads := List.find?_some hfind
  exact ⟨rule, hm, hform, hfamily, hreads⟩

/-- **Where no form is found, no rule of the family reads the word.** -/
lemma lookup_none {rules : List DecodingRule} {w : Word}
    (h : (ofRules rules).lookup w.value = none) {rule : DecodingRule} (hm : rule ∈ rules)
    (hfamily : rule.family = w.value / 4096) : rule.reads w.value = false := by
  have hfind := Option.map_eq_none_iff.mp h
  simpa using List.find?_eq_none.mp hfind rule (mem_candidates.mpr ⟨hm, hfamily⟩)

/-- **The only rule that reads a word is found.** -/
lemma lookup_of_unique {rules : List DecodingRule} {w : Word} {rule : DecodingRule}
    (hm : rule ∈ rules) (hfamily : rule.family = w.value / 4096) (hr : rule.reads w.value = true)
    (hu : ∀ other ∈ rules, other.reads w.value = true → other = rule) :
    (ofRules rules).lookup w.value = some rule.form := by
  cases hlookup : (ofRules rules).lookup w.value with
  | none => exact absurd hr (by simp [lookup_none hlookup hm hfamily])
  | some form =>
      obtain ⟨other, ho, rfl, -, hreads⟩ := lookup_some hlookup
      rw [hu other ho hreads]

end Decoder

/-! ## Tables whose printed forms exclude each other -/

namespace Form

/-- The value of a form, the bits that its pattern fixes and the bits by which it is told. -/
def bits? (form : Form) : Option (Nat × Nat × Nat) :=
  match form.value, form.mask, form.matchMask with
  | .ok value, .ok fixed, .ok (.ofNat told) => some (value, fixed, told)
  | _, _, _ => none

lemma bits?_eq_some_iff {form : Form} {value fixed told : Nat} :
    form.bits? = some (value, fixed, told) ↔
      form.value = .ok value ∧ form.mask = .ok fixed ∧ form.matchMask = .ok (told : Int) := by
  rw [bits?]
  split
  · next hv hf ht =>
      rw [hv, hf, ht]
      simp
  · next hnone =>
      simp only [false_iff, reduceCtorEq]
      rintro ⟨hv, hf, ht⟩
      exact hnone value fixed told hv hf ht

/-- **A form that can be told:** by some of the bits that its pattern fixes, the leading nibble
    among them. -/
def IsTold (form : Form) : Prop :=
  ∃ bits ∈ form.bits?, bits.2.1 &&& bits.2.2 = bits.2.2 ∧ bits.1 &&& bits.2.2 = bits.1 ∧
    bits.2.2 / 4096 = 15

/-- **Two forms that no code is read as:** where both look, their values differ. -/
def ToldApart (f g : Form) : Prop :=
  ∃ a ∈ f.bits?, ∃ b ∈ g.bits?, a.1 &&& b.2.2 ≠ b.1 &&& a.2.2

instance (form : Form) : Decidable form.IsTold :=
  inferInstanceAs (Decidable (∃ bits ∈ form.bits?, _))

instance (f g : Form) : Decidable (f.ToldApart g) :=
  inferInstanceAs (Decidable (∃ a ∈ f.bits?, ∃ b ∈ g.bits?, _))

/-- A natural number is read as a form when it has the digits of the form where the form looks. -/
lemma matchesCode_iff {form : Form} {value fixed told : Nat}
    (h : form.bits? = some (value, fixed, told)) (u : Nat) :
    form.matchesCode u = .ok true ↔ u &&& told = value := by
  obtain ⟨hv, -, ht⟩ := bits?_eq_some_iff.mp h
  simp only [matchesCode, hv, ht, bind, Except.bind, pure, Except.pure, Bits.and_natCast,
    Except.ok.injEq, beq_iff_eq]
  exact Int.ofNat_inj

lemma fits_iff {form : Form} {value fixed told : Nat}
    (h : form.bits? = some (value, fixed, told)) (u : Nat) :
    form.fits u = .ok true ↔ u &&& fixed = value := by
  obtain ⟨hv, hf, -⟩ := bits?_eq_some_iff.mp h
  exact fits_natCast_iff hv hf u

lemma ToldApart.not_both {f g : Form} (h : f.ToldApart g) {u : Nat}
    (hf : f.matchesCode u = .ok true) (hg : g.matchesCode u = .ok true) : False := by
  obtain ⟨⟨v, m, t⟩, ha, ⟨v', m', t'⟩, hb, hne⟩ := h
  rw [matchesCode_iff ha] at hf
  rw [matchesCode_iff hb] at hg
  refine hne ?_
  simp only
  rw [← hf, ← hg, Nat.and_assoc, Nat.and_assoc, Nat.and_comm t t']

lemma IsTold.matchesCode_of_fits {form : Form} (h : form.IsTold) {u : Nat}
    (hu : form.fits u = .ok true) : form.matchesCode u = .ok true := by
  obtain ⟨⟨value, fixed, told⟩, hbits, hsub, hvalue, -⟩ := h
  simp only at hsub hvalue
  rw [fits_iff hbits] at hu
  rw [matchesCode_iff hbits, ← hsub, ← Nat.and_assoc, hu, hvalue]

/-- **Bits that include the leading nibble keep it.** -/
lemma leading_and {n bits : Nat} (hn : n < 0x10000) (hbits : bits / 4096 &&& 15 = 15) :
    (n &&& bits) / 4096 = n / 4096 := by
  have hnibble : n / 4096 &&& 15 = n / 4096 := by
    have hmod := Nat.and_two_pow_sub_one_eq_mod (n / 4096) 4
    rwa [Nat.mod_eq_of_lt (by omega)] at hmod
  calc (n &&& bits) / 4096 = n / 4096 &&& bits / 4096 := Nat.and_div_two_pow (n := 12)
    _ = n / 4096 &&& 15 &&& (bits / 4096) := by rw [hnibble]
    _ = n / 4096 &&& 15 := by rw [Nat.and_assoc, Nat.and_comm 15, hbits]
    _ = n / 4096 := hnibble

/-- The leading nibble of a word that is read as a form is that of the form. -/
lemma IsTold.family_eq {form : Form} (h : form.IsTold) {w : Word} {value : Nat}
    (hv : form.value = .ok value) (hw : form.matchesCode w.value = .ok true) :
    value / 4096 = w.value / 4096 := by
  obtain ⟨⟨value', fixed, told⟩, hbits, -, -, hlead⟩ := h
  simp only at hlead
  rw [matchesCode_iff hbits] at hw
  have hsame := (bits?_eq_some_iff.mp hbits).1
  rw [hv, Except.ok.injEq] at hsame
  rw [hsame, ← hw]
  exact leading_and w.value_lt (by rw [hlead, Nat.and_self])

end Form

/-- **In a table whose printed forms are told apart, lookup finds exactly the form that reads the
    word.** -/
theorem Decoder.lookup_eq_some_iff {table : Table} (h : ∀ form ∈ table, form.WellFormed)
    (told : ∀ form ∈ table, form.IsTold)
    (apart : ∀ f ∈ table, ∀ g ∈ table, f.canonical = true → g.canonical = true →
      f = g ∨ f.ToldApart g) {decoder : Decoder} (hd : Decoder.ofTable table = .ok decoder)
    {w : Word} {form : Form} :
    decoder.lookup w.value = some form ↔
      form ∈ table ∧ form.canonical = true ∧ form.matchesCode w.value = .ok true := by
  obtain ⟨rules, hrules, hspec⟩ := DecodingRule.ofTable_spec h
  obtain rfl : Decoder.ofRules rules = decoder := by
    rw [Decoder.ofTable, hrules] at hd
    exact Except.ok.inj hd
  constructor
  · intro hlookup
    obtain ⟨rule, hmem, rfl, -, hr⟩ := lookup_some hlookup
    obtain ⟨form, hm, hc, hrule⟩ := (hspec rule).mp hmem
    rw [hrule.1]
    exact ⟨hm, hc, (hrule.reads_iff _).mp hr⟩
  · rintro ⟨hm, hc, hmatch⟩
    obtain ⟨rule, hrule⟩ := DecodingRule.exists_isRuleOf (h form hm)
    -- Only the family of the leading nibble is searched, so the rule has to belong to it.
    have hfamily : rule.family = w.value / 4096 :=
      (told form hm).family_eq hrule.2.1 hmatch
    rw [← hrule.1]
    refine lookup_of_unique ((hspec rule).mpr ⟨form, hm, hc, hrule⟩) hfamily
      ((hrule.reads_iff _).mpr hmatch) fun other hother hr => ?_
    obtain ⟨form', hm', hc', hrule'⟩ := (hspec other).mp hother
    rcases apart form hm form' hm' hc hc' with rfl | hapart
    · exact hrule'.unique hrule
    · exact (hapart.not_both hmatch ((hrule'.reads_iff _).mp hr)).elim

end Chip8
