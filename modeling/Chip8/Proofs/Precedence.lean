import Chip8.Proofs.StandardTable
import Mathlib.Data.List.Basic

/-!
# The form that takes precedence

A table may hold printed forms that read the same word.  The decoder then takes the form that looks
at the most bits, and of several such forms the first of the table, although it only searches the
family of the leading nibble and has sorted it before.

* `TakesPrecedence` is the choice as it could be made by going through a whole list.
* `DecodingRule.takesPrecedence_of_find?_rank` makes it among ranked rules: the search stops at the
  first rule that reads the word, and that is the choice.  The induction follows the ranking; its
  step is `DecodingRule.find?_insert_self` or `DecodingRule.find?_insert_other`.
* `DecodingRule.family_eq_of_reads` is why one family is enough.  A rule that looks at the leading
  nibble reads no word of another family.
* `Decoder.lookup_takesPrecedence` is the result for tables.  Where no word is read twice, it leaves
  nothing but the first form that reads the word, which a scan of the table finds (`Table.find?`).

The forms need not be fit for anything else: only their bit patterns have to be defined, and those
that are printed have to be told by their leading nibble, among other bits (`Form.IsIndexed`).
-/

namespace Chip8

/-! ## Precedence -/

/-- **The entry of a list that takes precedence** among those with a property: it has the property,
    the entries in front of it that have it weigh less, and those behind it do not weigh more. -/
def TakesPrecedence {α : Type} (weight : α → Nat) (p : α → Prop) (entries : List α) (a : α) :
    Prop :=
  ∃ front back, entries = front ++ a :: back ∧ p a ∧ (∀ b ∈ front, p b → weight b < weight a) ∧
    ∀ b ∈ back, p b → weight b ≤ weight a

namespace TakesPrecedence

variable {α β : Type} {weight : α → Nat} {p q : α → Prop} {entries : List α} {a b : α}

lemma mem (h : TakesPrecedence weight p entries a) : a ∈ entries ∧ p a := by
  obtain ⟨front, back, rfl, ha, -, -⟩ := h
  simp [ha]

lemma le (h : TakesPrecedence weight p entries a) (hb : b ∈ entries) (hp : p b) :
    weight b ≤ weight a := by
  obtain ⟨front, back, rfl, -, hfront, hback⟩ := h
  simp only [List.mem_append, List.mem_cons] at hb
  rcases hb with hb | rfl | hb
  · exact (hfront b hb hp).le
  · exact le_refl _
  · exact hback b hb hp

/-- **Only one entry takes precedence.** -/
lemma unique (ha : TakesPrecedence weight p entries a) (hb : TakesPrecedence weight p entries b) :
    a = b := by
  obtain ⟨front, back, rfl, hpa, hfront, hback⟩ := ha
  obtain ⟨front', back', hsplit, hpb, hfront', hback'⟩ := hb
  -- One of the two fronts is the beginning of the other.
  rcases List.append_eq_append_iff.mp hsplit with ⟨between, rfl, hrest⟩ | ⟨between, rfl, hrest⟩
  · rcases between with _ | ⟨c, between⟩
    · simpa using (List.cons.inj hrest).1
    · obtain ⟨rfl, rfl⟩ := List.cons.inj hrest
      have hlt := hfront' a (by simp) hpa
      have hle := hback b (by simp) hpb
      omega
  · rcases between with _ | ⟨c, between⟩
    · simpa using (List.cons.inj hrest).1.symm
    · obtain ⟨rfl, rfl⟩ := List.cons.inj hrest
      have hlt := hfront b (by simp) hpb
      have hle := hback' a (by simp) hpa
      omega

/-- The choice among selected entries is that among all entries that are selected. -/
lemma of_filter {select : α → Bool} (h : TakesPrecedence weight p (entries.filter select) a) :
    TakesPrecedence weight (fun b => select b = true ∧ p b) entries a := by
  obtain ⟨front, back, hsplit, ha, hfront, hback⟩ := h
  obtain ⟨front', rest, rfl, rfl, hrest⟩ := List.filter_eq_append_iff.mp hsplit
  obtain ⟨skipped, back', rfl, hskipped, hselect, rfl⟩ := List.filter_eq_cons_iff.mp hrest
  refine ⟨front' ++ skipped, back', by simp, ⟨hselect, ha⟩, ?_, ?_⟩
  · intro b hb hpb
    rcases List.mem_append.mp hb with hb | hb
    · exact hfront b (List.mem_filter.mpr ⟨hb, hpb.1⟩) hpb.2
    · exact absurd hpb.1 (hskipped b hb)
  · intro b hb hpb
    exact hback b (List.mem_filter.mpr ⟨hb, hpb.1⟩) hpb.2

lemma congr (h : TakesPrecedence weight p entries a) (hpq : ∀ b ∈ entries, p b ↔ q b) :
    TakesPrecedence weight q entries a := by
  obtain ⟨front, back, rfl, ha, hfront, hback⟩ := h
  refine ⟨front, back, rfl, (hpq a (by simp)).mp ha, ?_, ?_⟩
  · intro b hb hqb
    exact hfront b hb ((hpq b (by simp [hb])).mpr hqb)
  · intro b hb hqb
    exact hback b hb ((hpq b (by simp [hb])).mpr hqb)

/-- A choice is carried along a map that keeps the weights and the property. -/
lemma map {f : α → β} {weight' : β → Nat} {p' : β → Prop}
    (h : TakesPrecedence weight p entries a) (hweight : ∀ b ∈ entries, weight' (f b) = weight b)
    (hp : ∀ b ∈ entries, p' (f b) ↔ p b) :
    TakesPrecedence weight' p' (entries.map f) (f a) := by
  obtain ⟨front, back, rfl, ha, hfront, hback⟩ := h
  have hself : weight' (f a) = weight a := hweight a (by simp)
  refine ⟨front.map f, back.map f, by simp, (hp a (by simp)).mpr ha, ?_, ?_⟩
  · intro c hc hpc
    obtain ⟨b, hb, rfl⟩ := List.mem_map.mp hc
    rw [hweight b (by simp [hb]), hself]
    exact hfront b hb ((hp b (by simp [hb])).mp hpc)
  · intro c hc hpc
    obtain ⟨b, hb, rfl⟩ := List.mem_map.mp hc
    rw [hweight b (by simp [hb]), hself]
    exact hback b hb ((hp b (by simp [hb])).mp hpc)

/-- Where no two entries have the property, the first entry that has it is the one. -/
lemma find?_eq {test : α → Bool} (h : TakesPrecedence weight (test · = true) entries a)
    (hapart : entries.Pairwise fun b c => ¬ (test b = true ∧ test c = true)) :
    entries.find? test = some a := by
  obtain ⟨front, back, rfl, ha, -, -⟩ := h
  have hnone : ∀ b ∈ front, ¬ test b = true := by
    intro b hb htest
    exact (List.pairwise_append.mp hapart).2.2 b hb a List.mem_cons_self ⟨htest, ha⟩
  rw [List.find?_append, List.find?_eq_none.mpr hnone]
  simp [ha]

end TakesPrecedence

/-! ## Ranked rules -/

namespace DecodingRule

variable {rule : DecodingRule} {rules : List DecodingRule} {test : DecodingRule → Bool}

lemma pairwise_insert (h : rules.Pairwise fun a b => b.weight ≤ a.weight) :
    (insert rule rules).Pairwise fun a b => b.weight ≤ a.weight := by
  induction rules with
  | nil => simp [insert]
  | cons first rest ih =>
      obtain ⟨hfirst, hrest⟩ := List.pairwise_cons.mp h
      rw [insert]
      split_ifs with hle
      · refine List.pairwise_cons.mpr ⟨?_, h⟩
        intro r hr
        rcases List.mem_cons.mp hr with rfl | hr
        · exact hle
        · exact (hfirst r hr).trans hle
      · refine List.pairwise_cons.mpr ⟨?_, ih hrest⟩
        intro r hr
        rcases mem_insert.mp hr with rfl | hr
        · omega
        · exact hfirst r hr

/-- **Ranked rules stand in falling order of weight.** -/
lemma pairwise_rank (rules : List DecodingRule) :
    (rank rules).Pairwise fun a b => b.weight ≤ a.weight := by
  induction rules with
  | nil => exact .nil
  | cons first rest ih => exact pairwise_insert ih

/-- A rule is found if it passes and nothing that was found before is heavier. -/
lemma find?_insert_self (htest : test rule = true)
    (hle : ∀ r, rules.find? test = some r → r.weight ≤ rule.weight) :
    (insert rule rules).find? test = some rule := by
  induction rules with
  | nil => simp [insert, htest]
  | cons first rest ih =>
      rw [insert]
      split_ifs with hweight
      · simp [htest]
      · have hfirst : ¬ test first = true := by
          intro hpass
          exact hweight (hle first (by simp [hpass]))
        rw [List.find?_cons_of_neg hfirst]
        rw [List.find?_cons_of_neg hfirst] at hle
        exact ih hle

/-- Otherwise what was found before is found again. -/
lemma find?_insert_other (hsorted : rules.Pairwise fun a b => b.weight ≤ a.weight)
    (h : test rule = true → ∃ r, rules.find? test = some r ∧ rule.weight < r.weight) :
    (insert rule rules).find? test = rules.find? test := by
  induction rules with
  | nil =>
      have hrule : ¬ test rule = true := by
        intro htest
        obtain ⟨r, hr, -⟩ := h htest
        cases hr
      simp [insert, hrule]
  | cons first rest ih =>
      obtain ⟨hfirst, hrest⟩ := List.pairwise_cons.mp hsorted
      rw [insert]
      split_ifs with hweight
      · have hrule : ¬ test rule = true := by
          intro htest
          obtain ⟨r, hr, hlt⟩ := h htest
          have hle : r.weight ≤ first.weight := by
            rcases List.mem_cons.mp (List.mem_of_find?_eq_some hr) with rfl | hmem
            · exact le_refl _
            · exact hfirst r hmem
          omega
        rw [List.find?_cons_of_neg hrule]
      · by_cases hpass : test first = true
        · rw [List.find?_cons_of_pos hpass, List.find?_cons_of_pos hpass]
        · rw [List.find?_cons_of_neg hpass] at h ⊢
          rw [List.find?_cons_of_neg hpass, ih hrest h]

/-- **What is found among ranked rules is the rule that takes precedence.** -/
lemma takesPrecedence_of_find?_rank (h : (rank rules).find? test = some rule) :
    TakesPrecedence weight (test · = true) rules rule := by
  induction rules generalizing rule with
  | nil => cases h
  | cons first rest ih =>
      have hrank : rank (first :: rest) = insert first (rank rest) := rfl
      rw [hrank] at h
      by_cases hself : test first = true ∧
          ∀ r, (rank rest).find? test = some r → r.weight ≤ first.weight
      · obtain ⟨htest, hle⟩ := hself
        rw [find?_insert_self htest hle, Option.some.injEq] at h
        subst h
        refine ⟨[], rest, rfl, htest, by simp, ?_⟩
        intro b hb hpass
        have hsome : ((rank rest).find? test).isSome = true :=
          List.find?_isSome.mpr ⟨b, mem_rank.mpr hb, hpass⟩
        obtain ⟨best, hbest⟩ := Option.isSome_iff_exists.mp hsome
        exact ((ih hbest).le hb hpass).trans (hle best hbest)
      · have hother : test first = true →
            ∃ r, (rank rest).find? test = some r ∧ first.weight < r.weight := by
          intro htest
          by_contra hno
          refine hself ⟨htest, fun r hr => ?_⟩
          by_contra hlt
          exact hno ⟨r, hr, by omega⟩
        rw [find?_insert_other (pairwise_rank rest) hother] at h
        obtain ⟨front, back, rfl, htest, hfront, hback⟩ := ih h
        refine ⟨first :: front, back, rfl, htest, ?_, hback⟩
        intro b hb hpass
        rcases List.mem_cons.mp hb with rfl | hb
        · obtain ⟨r, hr, hlt⟩ := hother hpass
          rw [h, Option.some.injEq] at hr
          rwa [hr]
        · exact hfront b hb hpass

/-- **A rule that looks at the leading nibble reads no word of another family.** -/
lemma family_eq_of_reads {bits : Nat} (hmask : rule.mask = (bits : Int))
    (hbits : bits &&& 0xF000 = 0xF000) {w : Word} (hr : rule.reads w.value = true) :
    rule.family = w.value / 4096 := by
  rw [reads, hmask, Bits.and_natCast, beq_iff_eq] at hr
  have hlead : bits / 4096 &&& 15 = 15 := by
    have hdiv : (bits &&& 0xF000) / 4096 = bits / 4096 &&& 0xF000 / 4096 :=
      Nat.and_div_two_pow (n := 12)
    rw [hbits] at hdiv
    exact hdiv.symm
  rw [family, ← Int.ofNat_inj.mp hr]
  exact Form.leading_and w.value_lt hlead

end DecodingRule

/-! ## Forms that can be indexed -/

namespace Form

/-- The number of bits by which a form is told. -/
def weight (form : Form) : Nat :=
  match form.matchMask with
  | .ok bits => Bits.ones bits.natAbs
  | .error _ => 0

/-- **A printed form reads a code.** -/
def Reads (form : Form) (code : Int) : Prop :=
  form.canonical = true ∧ form.matchesCode code = .ok true

instance (form : Form) (code : Int) : Decidable (form.Reads code) :=
  inferInstanceAs (Decidable (_ ∧ _))

/-- **A form that can be indexed:** its bit patterns are defined, and if it is printed, all bits of
    the leading nibble are among those by which it is told. -/
structure IsIndexed (form : Form) : Prop where
  defined : Pattern.hasDefinedBits form.pattern = true
  told : form.canonical = true →
    ∃ bits : Nat, form.matchMask = .ok (bits : Int) ∧ bits &&& 0xF000 = 0xF000

lemma IsIndexed.exists_isRuleOf {form : Form} (h : form.IsIndexed) (hc : form.canonical = true) :
    ∃ rule : DecodingRule, rule.IsRuleOf form := by
  obtain ⟨bits, hbits, -⟩ := h.told hc
  have hvalue : form.value = .ok (Pattern.valueFrom Pattern.nibbleWeights form.pattern.toList) := by
    rw [value, Pattern.value, if_pos h.defined]
  exact ⟨⟨bits, _, form⟩, rfl, hvalue, hbits⟩

/-- Fit forms that can be told can be indexed. -/
lemma WellFormed.isIndexed {form : Form} (h : form.WellFormed) (told : form.IsTold) :
    form.IsIndexed := by
  obtain ⟨⟨value, fixed, bits⟩, hbits, -, -, hlead⟩ := told
  refine ⟨Pattern.hasDefinedBits_of_length h.regular.length, fun _ => ?_⟩
  refine ⟨bits, (bits?_eq_some_iff.mp hbits).2.2, ?_⟩
  simp only at hlead
  rw [Pattern.eq_iff_div_mod 12, Nat.and_div_two_pow, Nat.and_mod_two_pow]
  refine ⟨?_, Nat.and_zero _⟩
  show bits / 4096 &&& 15 = 15
  rw [hlead, Nat.and_self]

end Form

namespace DecodingRule.IsRuleOf

variable {rule : DecodingRule} {form : Form}

lemma weight_eq (h : rule.IsRuleOf form) : form.weight = rule.weight := by
  rw [Form.weight, h.2.2, weight]

lemma family_eq (h : rule.IsRuleOf form) (hindexed : form.IsIndexed) (hc : form.canonical = true)
    {w : Word} (hr : rule.reads w.value = true) : rule.family = w.value / 4096 := by
  obtain ⟨bits, hbits, hlead⟩ := hindexed.told hc
  rw [h.2.2, Except.ok.injEq] at hbits
  exact family_eq_of_reads hbits hlead hr

end DecodingRule.IsRuleOf

/-! ## Scanning the table -/

namespace Table

/-- **No word is read by two printed forms.** -/
def ReadsOnce (table : Table) : Prop :=
  table.Pairwise fun f g => ∀ w : Word, ¬ (f.Reads w.value ∧ g.Reads w.value)

/-- **A scan of the table finds the first printed form that reads the code.** -/
lemma find?_eq {table : Table} {code : Int}
    (h : ∀ form ∈ table, form.canonical = true → ∃ taken, form.matchesCode code = .ok taken) :
    find? table code = .ok (List.find? (fun form => decide (form.Reads code)) table) := by
  induction table with
  | nil => rfl
  | cons form rest ih =>
      have hrest := ih fun f hf => h f (List.mem_cons_of_mem _ hf)
      rw [find?, hrest]
      by_cases hc : form.canonical = true
      · obtain ⟨taken, ht⟩ := h form List.mem_cons_self hc
        cases taken with
        | true =>
            rw [List.find?_cons_of_pos (by simp [Form.Reads, hc, ht]), if_pos hc, ht]
            rfl
        | false =>
            rw [List.find?_cons_of_neg (by simp [Form.Reads, ht]), if_pos hc, ht]
            rfl
      · rw [List.find?_cons_of_neg (by simp [Form.Reads, hc]), if_neg hc]

lemma standard_isIndexed : ∀ form ∈ standard, form.IsIndexed :=
  fun form hf => (standard_forms form hf).isIndexed (standard_isTold form hf)

lemma standard_readsOnce : standard.ReadsOnce := by
  have hnodup : standard.Nodup := by decide +kernel
  refine hnodup.pairwise_of_forall_ne fun f hf g hg hne w => ?_
  rintro ⟨⟨hc, hr⟩, ⟨hc', hr'⟩⟩
  rcases standard_toldApart f hf g hg hc hc' with rfl | hapart
  · exact hne rfl
  · exact hapart.not_both hr hr'

end Table

/-! ## Lookup -/

namespace Decoder

section

variable {table : Table} {rules : List DecodingRule} {w : Word}
  (indexed : ∀ form ∈ table, form.IsIndexed)
  (hforms : rules.map (·.form) = table.filter (·.canonical))
  (hspec : ∀ rule ∈ rules, rule.IsRuleOf rule.form)

include indexed hforms hspec

/-- **A rule that reads a word is in the family that is searched.** -/
lemma family_eq_of_mem {rule : DecodingRule} (hrule : rule ∈ rules)
    (hr : rule.reads w.value = true) : rule.family = w.value / 4096 := by
  have hmem : rule.form ∈ table.filter (·.canonical) :=
    hforms ▸ List.mem_map_of_mem (f := (·.form)) hrule
  obtain ⟨hm, hc⟩ := List.mem_filter.mp hmem
  exact (hspec rule hrule).family_eq (indexed _ hm) hc hr

/-- **The form that is found takes precedence** among the printed forms that read the word. -/
lemma takesPrecedence_of_lookup {form : Form}
    (hlookup : (ofRules rules).lookup w.value = some form) :
    TakesPrecedence Form.weight (·.Reads w.value) table form := by
  obtain ⟨rule, hfind, rfl⟩ := Option.map_eq_some_iff.mp hlookup
  rw [candidates_eq] at hfind
  have hreads : TakesPrecedence DecodingRule.weight (·.reads w.value = true) rules rule := by
    refine (DecodingRule.takesPrecedence_of_find?_rank hfind).of_filter.congr fun other hother => ?_
    refine and_iff_right_of_imp fun hr => ?_
    simp [family_eq_of_mem indexed hforms hspec hother hr]
  have hmatches : TakesPrecedence Form.weight (·.matchesCode w.value = .ok true)
      (table.filter (·.canonical)) rule.form := by
    rw [← hforms]
    exact hreads.map (fun other hother => (hspec other hother).weight_eq)
      fun other hother => ((hspec other hother).reads_iff _).symm
  exact hmatches.of_filter

/-- Where no form is found, every printed form has been asked in vain. -/
lemma matchesCode_of_lookup_none (hlookup : (ofRules rules).lookup w.value = none) {form : Form}
    (hm : form ∈ table) (hc : form.canonical = true) :
    form.matchesCode w.value = .ok false := by
  have hmem : form ∈ rules.map (·.form) := hforms ▸ List.mem_filter.mpr ⟨hm, hc⟩
  obtain ⟨rule, hrule, rfl⟩ := List.mem_map.mp hmem
  rw [(hspec rule hrule).matchesCode_eq, Except.ok.injEq]
  by_contra hr
  rw [Bool.not_eq_false] at hr
  have hfalse := lookup_none hlookup hrule (family_eq_of_mem indexed hforms hspec hrule hr)
  rw [hr] at hfalse
  cases hfalse

lemma lookup_eq_none_iff :
    (ofRules rules).lookup w.value = none ↔
      ∀ form ∈ table, form.canonical = true → form.matchesCode w.value = .ok false := by
  constructor
  · intro hnone form hm hc
    exact matchesCode_of_lookup_none indexed hforms hspec hnone hm hc
  · intro hall
    cases hlookup : (ofRules rules).lookup w.value with
    | none => rfl
    | some form =>
        obtain ⟨hm, hc, hr⟩ := (takesPrecedence_of_lookup indexed hforms hspec hlookup).mem
        rw [hall form hm hc] at hr
        cases hr

lemma lookup_eq_some_iff_takesPrecedence {form : Form} :
    (ofRules rules).lookup w.value = some form ↔
      TakesPrecedence Form.weight (·.Reads w.value) table form := by
  constructor
  · exact takesPrecedence_of_lookup indexed hforms hspec
  · intro h
    cases hlookup : (ofRules rules).lookup w.value with
    | none =>
        obtain ⟨hm, hc, hr⟩ := h.mem
        rw [matchesCode_of_lookup_none indexed hforms hspec hlookup hm hc] at hr
        cases hr
    | some other =>
        rw [(takesPrecedence_of_lookup indexed hforms hspec hlookup).unique h]

/-- **Where no word is read twice, indexing and scanning find the same.** -/
lemma find?_eq_lookup (once : table.ReadsOnce) :
    Table.find? table w.value = .ok ((ofRules rules).lookup w.value) := by
  have hdefined : ∀ form ∈ table, form.canonical = true →
      ∃ taken, form.matchesCode w.value = .ok taken := by
    intro form hm hc
    obtain ⟨rule, hrule⟩ := (indexed form hm).exists_isRuleOf hc
    exact ⟨_, hrule.matchesCode_eq _⟩
  rw [Table.find?_eq hdefined]
  cases hlookup : (ofRules rules).lookup w.value with
  | none =>
      have hnone : ∀ form ∈ table, ¬ decide (form.Reads w.value) = true := by
        intro form hm hreads
        obtain ⟨hc, hr⟩ := of_decide_eq_true hreads
        rw [matchesCode_of_lookup_none indexed hforms hspec hlookup hm hc] at hr
        cases hr
      rw [List.find?_eq_none.mpr hnone]
  | some form =>
      have hfirst : TakesPrecedence Form.weight (fun form => decide (form.Reads w.value) = true)
          table form :=
        (takesPrecedence_of_lookup indexed hforms hspec hlookup).congr fun f _ => by simp
      have hapart : table.Pairwise fun f g =>
          ¬ (decide (f.Reads w.value) = true ∧ decide (g.Reads w.value) = true) := by
        simpa using once.imp fun h => h w
      rw [hfirst.find?_eq hapart]

end

/-- **The index finds what a search of the whole table would find.**  If every form can be indexed,
    the table has a decoder.  No form is found for a word if and only if no printed form reads it,
    and a form is found if and only if it takes precedence among those that do: it looks at the most
    bits and is the first to look at so many.  In a table that reads no word twice, such as the
    standard one, that is the first printed form that reads the word. -/
theorem lookup_takesPrecedence {table : Table} (indexed : ∀ form ∈ table, form.IsIndexed) :
    (∃ decoder, ofTable table = .ok decoder ∧
      (∀ w : Word, decoder.lookup w.value = none ↔
        ∀ form ∈ table, form.canonical = true → form.matchesCode w.value = .ok false) ∧
      (∀ (w : Word) (form : Form), decoder.lookup w.value = some form ↔
        TakesPrecedence Form.weight (·.Reads w.value) table form) ∧
      (table.ReadsOnce → ∀ w : Word, table.find? w.value = .ok (decoder.lookup w.value))) ∧
    Table.standard.ReadsOnce ∧
    ∀ w : Word, Table.standard.find? w.value = .ok (standard.lookup w.value) := by
  refine ⟨?_, Table.standard_readsOnce, fun w => ?_⟩
  · obtain ⟨rules, hrules, hforms, hspec⟩ :=
      DecodingRule.ofTable_ordered fun form hf hc => (indexed form hf).exists_isRuleOf hc
    refine ⟨ofRules rules, by rw [ofTable, hrules]; rfl, fun w => ?_, fun w form => ?_, ?_⟩
    · exact lookup_eq_none_iff indexed hforms hspec
    · exact lookup_eq_some_iff_takesPrecedence indexed hforms hspec
    · intro once w
      exact find?_eq_lookup indexed hforms hspec once
  · obtain ⟨rules, hrules, hforms, hspec⟩ := DecodingRule.ofTable_ordered fun form hf hc =>
      (Table.standard_isIndexed form hf).exists_isRuleOf hc
    rw [standard, ofTable, hrules]
    exact find?_eq_lookup Table.standard_isIndexed hforms hspec Table.standard_readsOnce

/-- Four rows whose words overlap: two that look at eight bits each, one that looks at four and one
    that is only read. -/
def overlapping : Table :=
  [⟨"SYS", [], "1nnn", "", true, none⟩, ⟨"LOW", [], "10nn", "", true, none⟩,
    ⟨"ALIGNED", [], "1nn0", "", true, none⟩, ⟨"ZERO", [], "1000", "", false, some (-1)⟩]

/-- The tie at `1000` goes to the earlier of the two rows that look at eight bits. -/
theorem lookup_takesPrecedence_overlapping :
    (∀ form ∈ overlapping, form.IsIndexed) ∧
    ∃ decoder, ofTable overlapping = .ok decoder ∧
      decoder.lookup 0x1000 = overlapping[1]? ∧ decoder.lookup 0x1230 = overlapping[2]? ∧
      decoder.lookup 0x1234 = overlapping[0]? ∧ decoder.lookup 0x2000 = none := by
  have indexed : ∀ form ∈ overlapping, form.IsIndexed := by
    simp only [overlapping, List.forall_mem_cons]
    exact ⟨⟨by decide, fun _ => ⟨0xF000, by decide, by decide⟩⟩,
      ⟨by decide, fun _ => ⟨0xFF00, by decide, by decide⟩⟩,
      ⟨by decide, fun _ => ⟨0xF00F, by decide, by decide⟩⟩,
      ⟨by decide, fun hc => by cases hc⟩, by simp⟩
  obtain ⟨⟨decoder, hd, hnone, hsome, -⟩, -⟩ := lookup_takesPrecedence indexed
  refine ⟨indexed, decoder, hd, ?_, ?_, ?_, ?_⟩
  · exact (hsome ⟨0x1000, by decide⟩ _).mpr
      ⟨overlapping.take 1, overlapping.drop 2, rfl, by decide, by decide, by decide⟩
  · exact (hsome ⟨0x1230, by decide⟩ _).mpr
      ⟨overlapping.take 2, overlapping.drop 3, rfl, by decide, by decide, by decide⟩
  · exact (hsome ⟨0x1234, by decide⟩ _).mpr
      ⟨[], overlapping.drop 1, rfl, by decide, by decide, by decide⟩
  · exact (hnone ⟨0x2000, by decide⟩).mpr (by decide)

end Decoder

end Chip8
